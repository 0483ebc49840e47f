/-
What a server sends for a call, on whatever path the call is left: the acknowledgement for the broker, the reply
for the caller, or the request of a forward.
-/
import Casual.Call.Traces
import Casual.Server.Handle

namespace Casual.Server

open Lib Common Communication Call

variable {Sender : Type}

/-! ## What has been sent -/

/-- An acknowledgement that is sent. -/
def Sent.asAck : Sent → Option (Process × String)
  | .ack process service => some (process, service)
  | _ => none

/-- A reply that is sent. -/
def Sent.asReply : Sent → Option (Nat × Reply)
  | .reply queue r => some (queue, r)
  | _ => none

/-- A request that is forwarded. -/
def Sent.asForward : Sent → Option (Nat × Request)
  | .forward queue request => some (queue, request)
  | _ => none

/-- The acknowledgements among what is sent. -/
def acks (sent : List Sent) : List (Process × String) := sent.filterMap Sent.asAck

/-- The replies among what is sent. -/
def answers (sent : List Sent) : List (Nat × Reply) := sent.filterMap Sent.asReply

/-- The forwarded requests among what is sent. -/
def forwards (sent : List Sent) : List (Nat × Request) := sent.filterMap Sent.asForward

/-- What a reply is for, and what it holds apart from an error. -/
structure Content where
  correlation : Uuid
  descriptor : Nat
  code : Int
  buffer : Payload

/-- What a reply has for its caller. -/
def contentOf (reply : Reply) : Content := ⟨reply.correlation, reply.descriptor, reply.code, reply.buffer⟩

/-- The guards that are armed, what has been sent, and what is replied. -/
structure Stands (content : Content) (armed : List Guard) (a : List (Process × String))
    (r : List (Nat × Reply)) (f : List (Nat × Request)) (s : State Sender) : Prop where
  armed : s.armed = armed
  acks : acks s.sent = a
  answers : answers s.sent = r
  forwards : forwards s.sent = f
  content : contentOf s.reply = content

/-- Nothing of that has changed, and an error is not taken back. -/
structure Quiet (s t : State Sender) : Prop where
  armed : t.armed = s.armed
  acks : acks t.sent = acks s.sent
  answers : answers t.sent = answers s.sent
  forwards : forwards t.sent = forwards s.sent
  content : contentOf t.reply = contentOf s.reply
  error : s.reply.error ≠ 0 → t.reply.error ≠ 0

namespace Quiet

theorem of_sent {s t : State Sender} (harmed : t.armed = s.armed) (hsent : t.sent = s.sent)
    (hcontent : contentOf t.reply = contentOf s.reply) (herror : s.reply.error ≠ 0 → t.reply.error ≠ 0) : Quiet s t :=
  ⟨harmed, hsent ▸ rfl, hsent ▸ rfl, hsent ▸ rfl, hcontent, herror⟩

instance : Std.Refl (@Quiet Sender) := ⟨fun _ => of_sent rfl rfl rfl id⟩

instance : IsTrans (State Sender) Quiet where
  trans _ _ _ h h' := ⟨h'.armed.trans h.armed, h'.acks.trans h.acks, h'.answers.trans h.answers,
    h'.forwards.trans h.forwards, h'.content.trans h.content, fun he => h'.error (h.error he)⟩

end Quiet

theorem Stands.quiet {content : Content} {armed : List Guard} {a : List (Process × String)}
    {r : List (Nat × Reply)} {f : List (Nat × Request)} {s t : State Sender} (h : Stands content armed a r f s)
    (hq : Quiet s t) : Stands content armed a r f t :=
  ⟨hq.armed.trans h.armed, hq.acks.trans h.acks, hq.answers.trans h.answers, hq.forwards.trans h.forwards,
    hq.content.trans h.content⟩

/-! ## What is quiet -/

section

variable [DecidableEq Sender] (env : Surroundings Sender)

omit [DecidableEq Sender] in
theorem quiet_onContext {α : Type} (x : Call.M Sender α) : Moves Quiet (onContext x) := by
  constructor
  intro s
  unfold onContext
  cases x s.context <;> exact Quiet.of_sent rfl rfl rfl id

omit [DecidableEq Sender] in
theorem quiet_attempt (place : Place) : Moves Quiet (attempt env place) := by
  unfold attempt
  split_ifs
  · exact Moves.throw _
  · exact Moves.pure _

omit [DecidableEq Sender] in
/-- A message of another kind. -/
theorem quiet_send (place : Place) {m : Sent} (hack : m.asAck = none) (hreply : m.asReply = none)
    (hforward : m.asForward = none) : Moves Quiet (send env place m) := by
  refine (quiet_attempt env place).bind fun _ => Moves.modify fun s => ⟨rfl, ?_, ?_, ?_, rfl, id⟩
  · unfold acks
    rw [List.filterMap_append, List.filterMap_cons_none hack, List.filterMap_nil, List.append_nil]
  · unfold answers
    rw [List.filterMap_append, List.filterMap_cons_none hreply, List.filterMap_nil, List.append_nil]
  · unfold forwards
    rw [List.filterMap_append, List.filterMap_cons_none hforward, List.filterMap_nil, List.append_nil]

omit [DecidableEq Sender] in
theorem quiet_modify {f : State Sender → State Sender} (h : ∀ s, Quiet s (f s)) : Moves Quiet (modify f : M Sender PUnit) :=
  Moves.modify h

omit [DecidableEq Sender] in
theorem quiet_noted {error : Int} (h : error ≠ 0) (s : State Sender) : Quiet s (noted error s) :=
  Quiet.of_sent rfl rfl rfl fun _ => h

omit [DecidableEq Sender] in
theorem quiet_monitor (message : Request) : Moves Quiet (monitor env message) := by
  refine Moves.forM (fun queue => ?_) _
  unfold statistics
  exact (quiet_send env _ rfl rfl rfl).tryCatch fun _ => Moves.pure _

theorem quiet_pendingCheck (t : Transaction) : Moves Quiet (pendingCheck t : M Sender Unit) := by
  unfold pendingCheck
  refine Moves.ite (Moves.pure _) ((quiet_modify fun s => ?_).bind fun _ => Moves.forM (fun _ => quiet_onContext _) _)
  split_ifs
  · exact quiet_noted (by decide) s
  · exact Quiet.of_sent rfl rfl rfl id

theorem quiet_complete (value : Int) (t : Transaction) (i : Nat) : Moves Quiet (complete env value t i) := by
  have hdo : ∀ x : M Sender Int, Moves Quiet x → Moves Quiet (x >>= fun result => do
      modify fun s => { s with results := s.results ++ [result] }
      modify fun s => if result ≠ TX_OK then noted TPESVCERR s else s) := by
    intro x hx
    refine hx.bind fun result => (quiet_modify ?_).bind fun _ => quiet_modify ?_
    · exact fun s => Quiet.of_sent rfl rfl rfl id
    · intro s
      split_ifs
      · exact quiet_noted (by decide) s
      · exact Quiet.of_sent rfl rfl rfl id
  have hcommit : Moves Quiet (commit env i t) := by
    unfold commit
    rcases t.trid with _ | id
    · exact Moves.throw _
    refine Moves.ite (Moves.throw _) (Moves.ite (Moves.throw _) (Moves.ite (Moves.throw _) (Moves.ite ?_ ?_)))
    · rcases t.resources ++ env.fixed with _ | ⟨rm, rest⟩
      · exact Moves.pure _
      · unfold resourceCommit
        exact Moves.ite (Moves.pure _) (Moves.throw _)
    · rcases env.commit i ⟨id, env.process, env.fixed ++ t.resources⟩ with _ | ⟨correlation, stage, state⟩
      · exact Moves.throw _
      · cases stage with
        | prepare =>
          refine Moves.ite ((quiet_onContext _).bind fun _ => Moves.pure _) ?_
          rcases env.committed i with _ | state
          · exact Moves.throw _
          · exact Moves.pure _
        | commit => exact Moves.pure _
        | error => exact Moves.pure _
  have hrollback : Moves Quiet (rollback env i t) := by
    unfold rollback
    rcases t.trid with _ | id
    · exact Moves.throw _
    refine Moves.ite (Moves.throw _) ?_
    rcases env.rollback i ⟨id, env.process, env.fixed ++ t.resources⟩ with _ | state
    · exact Moves.throw _
    · exact Moves.pure _
  unfold complete
  split_ifs
  · exact hdo _ hcommit
  · exact hdo _ hrollback

theorem quiet_completeOwned (value : Int) : ∀ (ts : List Transaction) (i : Nat), Moves Quiet (completeOwned env value ts i)
  | [], _ => Moves.pure _
  | t :: ts, i => (quiet_complete env value t i).bind fun _ => quiet_completeOwned value ts (i + 1)

omit [DecidableEq Sender] in
theorem quiet_outcome (value : Int) (found : Transaction) : Moves Quiet (outcome env value found) := by
  unfold outcome
  refine (quiet_modify ?_).bind fun _ => ?_
  · exact fun s => Quiet.of_sent rfl rfl rfl id
  rcases found.trid with _ | trid
  · exact Moves.pure _
  · unfold involved
    exact Moves.ite (Moves.pure _) (quiet_send env _ rfl rfl rfl)

omit [DecidableEq Sender] in
theorem quiet_answerCaller (value : Int) (ts : List Transaction) : Moves Quiet (answerCaller env value ts) := by
  unfold answerCaller
  refine Moves.get.bind fun s => ?_
  dsimp only
  cases ts.find? fun t => s.caller.any t.is with
  | none => exact Moves.pure _
  | some found => exact quiet_outcome env value found

theorem quiet_finalize (value : Int) : Moves Quiet (finalize env value) := by
  unfold finalize
  refine Moves.get.bind fun s => ?_
  refine (quiet_modify ?_).bind fun _ => (quiet_modify ?_).bind fun _ => ?_
  · exact fun s => Quiet.of_sent rfl rfl rfl id
  · intro s
    split_ifs
    · exact Quiet.of_sent rfl rfl rfl id
    · exact quiet_noted (by decide) s
  refine (Moves.forM quiet_pendingCheck _).bind fun _ => (quiet_completeOwned env value _ 0).bind fun _ => ?_
  refine (quiet_answerCaller env value _).bind fun _ => quiet_modify ?_
  exact fun s => Quiet.of_sent rfl rfl rfl id

/-! ## What is left of transactions and errors -/

/-- No error has been noted so far, and the service has left with this value. -/
def Honest (value : Int) (s : State Sender) : Prop :=
  s.reply.error = 0 → (value = TPESVCERR ∨ value = TPSUCCESS) ∧ ∀ result ∈ s.results, result = TX_OK

/-- What completing transactions keeps: none are there, and a failure is noted. -/
def Settles (value : Int) (s : State Sender) : Prop := s.context.transactions = [] ∧ Honest value s

variable {value : Int}

omit [DecidableEq Sender] in
theorem Settles.noted {error : Int} (h : error ≠ 0) {s : State Sender} (hs : s.context.transactions = []) :
    Settles value (noted error s) := ⟨hs, fun h' => absurd h' h⟩

/-- Cancelling a call leaves the transactions that are there, when it is none of theirs. -/
theorem transactions_cancel (descriptor : Nat) :
    Moves (Keeps fun s : Context Sender => s.transactions) (cancel descriptor) := by
  unfold cancel
  refine Moves.get.bind fun s => Moves.ite (Moves.throw _) ?_
  refine (keeps_transactions (still_getDescriptor descriptor)).bind fun found => ?_
  exact (keeps_transactions (still_discardCorrelation found.correlation)).bind fun _ => transactions_unreserve descriptor

/-- What keeps it, whether it returns or throws. -/
def Settling (value : Int) {α : Type} (x : M Sender α) : Prop :=
  Triple (Settles value) x (fun _ => Settles value) fun _ => Settles value

omit [DecidableEq Sender] in
/-- What is done with the singletons leaves the reply. -/
theorem settling_onContext {α : Type} {x : Call.M Sender α} (h : Moves (Keeps fun s : Context Sender => s.transactions) x) :
    Settling value (onContext x) := by
  rintro s ⟨htransactions, hhonest⟩
  have hafter := h.after s.context
  unfold onContext
  cases hx : x s.context with
  | ok a c =>
    rw [hx] at hafter
    exact ⟨Eq.trans hafter htransactions, hhonest⟩
  | error e c =>
    rw [hx] at hafter
    exact ⟨Eq.trans hafter htransactions, hhonest⟩

omit [DecidableEq Sender] in
theorem settling_attempt (place : Place) : Settling value (attempt env place) := by
  unfold attempt
  exact Triple.ite (fun _ => Triple.throw fun _ h => h) fun _ => Triple.pure fun _ h => h

omit [DecidableEq Sender] in
theorem settling_send (place : Place) (m : Sent) : Settling value (send env place m) :=
  (settling_attempt env place).bind fun _ => Triple.modify fun _ h => h

theorem settling_pendingCheck (t : Transaction) : Settling value (pendingCheck t : M Sender Unit) := by
  unfold pendingCheck
  refine Triple.ite (fun _ => Triple.pure fun _ h => h) fun _ => ?_
  refine Triple.bind (Q := fun _ => Settles value) (Triple.modify fun s hs => ?_) fun _ => ?_
  · split_ifs
    · exact .noted (by decide) hs.1
    · exact hs
  · exact Triple.forM fun descriptor _ => settling_onContext (transactions_cancel descriptor)

theorem settling_commit (i : Nat) (t : Transaction) : Settling value (commit env i t) := by
  unfold commit
  rcases t.trid with _ | id
  · exact Triple.throw fun _ h => h
  refine Triple.ite (fun _ => Triple.throw fun _ h => h) fun _ => Triple.ite (fun _ => Triple.throw fun _ h => h) fun _ =>
    Triple.ite (fun _ => Triple.throw fun _ h => h) fun _ => Triple.ite (fun _ => ?_) fun _ => ?_
  · rcases t.resources ++ env.fixed with _ | ⟨rm, rest⟩
    · exact Triple.pure fun _ h => h
    · unfold resourceCommit
      exact Triple.ite (fun _ => Triple.pure fun _ h => h) fun _ => Triple.throw fun _ h => h
  · rcases env.commit i ⟨id, env.process, env.fixed ++ t.resources⟩ with _ | ⟨correlation, stage, state⟩
    · exact Triple.throw fun _ h => h
    · cases stage with
      | prepare =>
        refine Triple.ite (fun _ => ?_) fun _ => ?_
        · refine Triple.bind (settling_onContext (keeps_transactions (still_discardCorrelation correlation))) fun _ => ?_
          exact Triple.pure fun _ h => h
        · rcases env.committed i with _ | state
          · exact Triple.throw fun _ h => h
          · exact Triple.pure fun _ h => h
      | commit => exact Triple.pure fun _ h => h
      | error => exact Triple.pure fun _ h => h

omit [DecidableEq Sender] in
theorem settling_rollback (i : Nat) (t : Transaction) : Settling value (rollback env i t) := by
  unfold rollback
  rcases t.trid with _ | id
  · exact Triple.throw fun _ h => h
  refine Triple.ite (fun _ => Triple.throw fun _ h => h) fun _ => ?_
  rcases env.rollback i ⟨id, env.process, env.fixed ++ t.resources⟩ with _ | state
  · exact Triple.throw fun _ h => h
  · exact Triple.pure fun _ h => h

/-- What is not completed well is noted. -/
theorem settling_complete (t : Transaction) (i : Nat) : Settling value (complete env value t i) := by
  have hdo : ∀ x : M Sender Int, Settling value x → Settling value (x >>= fun result => do
      modify fun s => { s with results := s.results ++ [result] }
      modify fun s => if result ≠ TX_OK then noted TPESVCERR s else s) := by
    intro x hx
    refine Triple.bind hx fun result s hs => ?_
    show Settles value (if result ≠ TX_OK then noted TPESVCERR { s with results := s.results ++ [result] } else
      { s with results := s.results ++ [result] })
    split_ifs with hresult
    · exact .noted (by decide) hs.1
    · refine ⟨hs.1, fun herror => ⟨(hs.2 herror).1, fun r hr => ?_⟩⟩
      rcases List.mem_append.1 hr with hr | hr
      · exact (hs.2 herror).2 r hr
      · rw [List.mem_singleton.1 hr]
        exact not_not.1 hresult
  unfold complete
  split_ifs
  · exact hdo _ (settling_commit env i t)
  · exact hdo _ (settling_rollback env i t)

theorem settling_completeOwned : ∀ (ts : List Transaction) (i : Nat), Settling value (completeOwned env value ts i)
  | [], _ => Triple.pure fun _ h => h
  | t :: ts, i => (settling_complete env t i).bind fun _ => settling_completeOwned ts (i + 1)

omit [DecidableEq Sender] in
theorem settling_answerCaller (ts : List Transaction) : Settling value (answerCaller env value ts) := by
  unfold answerCaller
  refine Triple.bind (Q := fun _ => Settles value) (Triple.get fun _ h => h) fun s => ?_
  dsimp only
  cases ts.find? fun t => s.caller.any t.is with
  | none => exact Triple.pure fun _ h => h
  | some found =>
    unfold outcome
    refine Triple.bind (Q := fun _ => Settles value) (Triple.modify fun _ h => h) fun _ => ?_
    rcases found.trid with _ | trid
    · exact Triple.pure fun _ h => h
    · unfold involved
      exact Triple.ite (fun _ => Triple.pure fun _ h => h) fun _ => settling_send env _ _

/-- However finalizing is left, no transaction is there, and without an error in the reply the service has said
so and all that was completed has gone well. -/
theorem settles_finalize (value : Int) :
    Triple (fun s : State Sender => s.reply.error = 0 → ∀ result ∈ s.results, result = TX_OK) (finalize env value)
      (fun _ => Settles value) fun _ => Settles value := by
  unfold finalize
  refine Triple.bind (Q := fun _ s => s.reply.error = 0 → ∀ result ∈ s.results, result = TX_OK) (Triple.get fun _ h => h)
    fun s => ?_
  refine Triple.bind (Q := fun _ s => s.context.transactions = [] ∧ (s.reply.error = 0 → ∀ result ∈ s.results, result = TX_OK))
    (Triple.modify fun _ h => ⟨rfl, h⟩) fun _ => ?_
  refine Triple.bind (Q := fun _ => Settles value) (Triple.modify fun s hs => ?_) fun _ => ?_
  · split_ifs with hvalue
    · exact ⟨hs.1, fun herror => ⟨hvalue, hs.2 herror⟩⟩
    · exact .noted (by decide) hs.1
  refine Triple.bind (Triple.forM fun t _ => settling_pendingCheck t) fun _ => ?_
  refine Triple.bind (settling_completeOwned env _ 0) fun _ => Triple.bind (settling_answerCaller env _) fun _ => ?_
  exact Triple.modify fun _ h => h

/-! ## Guards -/

omit [DecidableEq Sender] in
theorem triple_scope {α : Type} {guard : Guard} {execute : M Sender Unit} {body : M Sender α} {P I : State Sender → Prop}
    {Q R : α → State Sender → Prop} {E F : Exception → State Sender → Prop} (hbody : Triple I body Q E)
    (hP : ∀ s, P s → I { s with armed := guard :: s.armed }) (hq : ∀ a s, Q a s → R a (after (fire guard execute s)))
    (he : ∀ e s, E e s → F e (after (fire guard execute s))) : Triple P (scope guard execute body) R F := by
  unfold scope
  exact Triple.bind (Triple.modify hP) fun _ => hbody.onExit hq he

omit [DecidableEq Sender] in
/-- A guard that is armed is executed once. -/
theorem fire_armed {guard : Guard} {execute : M Sender Unit} {s : State Sender} (h : guard ∈ s.armed) :
    fire guard execute s = execute { s with armed := s.armed.filter (· ≠ guard) } := by
  unfold fire
  rw [bind_ok (show (get : M Sender (State Sender)) s = .ok s s from rfl), if_pos h]
  exact bind_ok rfl

omit [DecidableEq Sender] in
theorem fire_released {guard : Guard} {execute : M Sender Unit} {s : State Sender} (h : guard ∉ s.armed) :
    fire guard execute s = .ok () s := by
  unfold fire
  rw [bind_ok (show (get : M Sender (State Sender)) s = .ok s s from rfl), if_neg h]
  rfl

/-! ## What the guards send -/

/-- The acknowledgement, if the broker is there. -/
def dueAck (message : Request) : List (Process × String) :=
  if env.fails .ack then [] else [(env.process, message.service.name)]

/-- The reply, if one is expected and the caller is there. -/
def dueReply (message : Request) (reply : Reply) : List (Nat × Reply) :=
  if flag TPNOREPLY message.flags ∨ env.fails .reply then [] else [(message.process.queue, reply)]

variable {message : Request} {content : Content} {armed : List Guard} {a : List (Process × String)}
  {r : List (Nat × Reply)} {f : List (Nat × Request)}

omit [DecidableEq Sender] in
theorem after_send (place : Place) (m : Sent) (s : State Sender) : after (send env place m s) =
    if env.fails place then s else { s with sent := s.sent ++ [m] } := by
  unfold send attempt
  split_ifs
  · rfl
  · rfl

omit [DecidableEq Sender] in
theorem stands_ack {s : State Sender} (h : Stands content armed [] r f s) :
    Stands content armed (dueAck env message) r f (after (ack env message s)) := by
  unfold ack dueAck
  rw [after_send]
  split_ifs
  · exact h
  · refine ⟨h.armed, ?_, ?_, ?_, h.content⟩
    · unfold acks
      rw [List.filterMap_append, ← acks, h.acks]
      rfl
    · unfold answers
      rw [List.filterMap_append, ← answers, h.answers]
      exact List.append_nil _
    · unfold forwards
      rw [List.filterMap_append, ← forwards, h.forwards]
      exact List.append_nil _

omit [DecidableEq Sender] in
theorem after_sendReply (message : Request) (s : State Sender) : after (sendReply env message s) =
    if flag TPNOREPLY message.flags ∨ env.fails .reply then s
    else { s with sent := s.sent ++ [.reply message.process.queue s.reply] } := by
  unfold sendReply
  rw [bind_ok (show (get : M Sender (State Sender)) s = .ok s s from rfl)]
  by_cases hflag : flag TPNOREPLY message.flags = true
  · rw [if_pos hflag, if_pos (.inl hflag)]
    rfl
  · rw [if_neg hflag, after_send]
    exact if_congr (or_iff_right hflag).symm rfl rfl

omit [DecidableEq Sender] in
theorem stands_reply (message : Request) {s : State Sender} (h : Stands content armed a [] f s) :
    Stands content armed a (dueReply env message s.reply) f (after (sendReply env message s)) ∧
      (after (sendReply env message s)).reply = s.reply ∧ (after (sendReply env message s)).context = s.context ∧
      (after (sendReply env message s)).results = s.results := by
  rw [after_sendReply]
  unfold dueReply
  split_ifs
  · exact ⟨h, rfl, rfl, rfl⟩
  · refine ⟨⟨h.armed, ?_, ?_, ?_, h.content⟩, rfl, rfl, rfl⟩
    · unfold acks
      rw [List.filterMap_append, ← acks, h.acks]
      exact List.append_nil _
    · unfold answers
      rw [List.filterMap_append, ← answers, h.answers]
      rfl
    · unfold forwards
      rw [List.filterMap_append, ← forwards, h.forwards]
      exact List.append_nil _

/-! ## How far a call is -/

/-- How the service of a call is left, if there is such a service. -/
def leaves (message : Request) (context : Context Sender) : Option Left :=
  (env.services message.service.name).map fun mode =>
    (env.user (information message)
      { context with transactions := joined env mode message.trid context.transactions }).1

/-- Nothing has been sent, and the reply would tell of an error. -/
structure Unanswered (message : Request) (armed : List Guard) (s : State Sender) : Prop where
  stands : Stands (contentOf (transformMessage message)) armed [] [] [] s
  error : s.reply.error ≠ 0
  results : s.results = []

/-- The transactions have been finalized for an error. -/
structure Failed (message : Request) (armed : List Guard) (a : List (Process × String)) (r : List (Nat × Reply))
    (s : State Sender) : Prop where
  stands : Stands (contentOf (transformMessage message)) armed a r [] s
  error : s.reply.error ≠ 0
  transactions : s.context.transactions = []

/-- The request of a forward has been sent, and no reply. -/
structure Forwarded (message : Request) (armed : List Guard) (a : List (Process × String)) (s : State Sender) : Prop where
  sent : ∃ queue service buffer, forwards s.sent =
    [(queue, { message with parent := message.service.name, service, buffer })]
  stands : Stands (contentOf (transformMessage message)) armed a [] (forwards s.sent) s

/-- The broker has been told, and the transactions are still there. -/
structure Acknowledged (message : Request) (content : Content) (armed : List Guard)
    (s : State Sender) : Prop where
  stands : Stands content armed (dueAck env message) [] [] s
  results : s.reply.error = 0 → ∀ result ∈ s.results, result = TX_OK

/-- The transactions have been finalized. -/
structure Concluded (message : Request) (content : Content) (value : Int) (armed : List Guard)
    (s : State Sender) : Prop where
  stands : Stands content armed (dueAck env message) [] [] s
  settles : Settles value s

/-- The caller has been told, too. -/
structure Replied (message : Request) (content : Content) (value : Int) (armed : List Guard)
    (s : State Sender) : Prop where
  stands : Stands content armed (dueAck env message) (dueReply env message s.reply) [] s
  settles : Settles value s

omit [DecidableEq Sender] in
/-- A guard is taken off. -/
theorem Stands.take {s : State Sender} (h : Stands content armed a r f s) (guard : Guard) {l : List Guard}
    (hleft : armed.filter (· ≠ guard) = l) :
    Stands content l a r f { s with armed := s.armed.filter (· ≠ guard) } :=
  ⟨by rw [h.armed]; exact hleft, h.acks, h.answers, h.forwards, h.content⟩

omit [DecidableEq Sender] in

omit [DecidableEq Sender] in
/-- What is left is kept by what only sends events. -/
theorem monitor_keeps (message : Request) :
    Moves (Keeps fun s : State Sender => (s.context, s.reply, s.results)) (monitor env message) := by
  refine Moves.forM (fun queue => ?_) _
  unfold statistics
  refine Moves.tryCatch ⟨fun s => ?_⟩ fun _ => Moves.pure _
  rw [after_send]
  split_ifs <;> rfl

theorem after_finalize {s : State Sender} {v : Int} (hs : Stands content armed a r f s)
    (hresults : s.reply.error = 0 → ∀ result ∈ s.results, result = TX_OK) :
    Stands content armed a r f (after (finalize env v s)) ∧ Settles v (after (finalize env v s)) :=
  ⟨hs.quiet ((quiet_finalize env v).after s), (settles_finalize env v).after hresults⟩

/-! ## What each guard does -/

omit [DecidableEq Sender] in
theorem triple_fire {guard : Guard} {execute : M Sender Unit} {P I : State Sender → Prop} {Q : Unit → State Sender → Prop}
    {E : Exception → State Sender → Prop} (h : Triple I execute Q E) (harmed : ∀ s, P s → guard ∈ s.armed)
    (hP : ∀ s, P s → I { s with armed := s.armed.filter (· ≠ guard) }) : Triple P (fire guard execute) Q E := by
  intro s hs
  rw [fire_armed (harmed s hs)]
  exact h _ (hP s hs)

/-- What a guard leaves, whether what it executes returns or throws. -/
def Leaves (P : State Sender → Prop) (x : M Sender Unit) (Q : State Sender → Prop) : Prop :=
  Triple P x (fun _ => Q) fun _ => Q

omit [DecidableEq Sender] in
theorem leaves_ack {guards left : List Guard} (hmem : Guard.ack ∈ guards) (hleft : guards.filter (· ≠ .ack) = left) :
    Leaves (fun s : State Sender => Stands content guards [] [] [] s ∧
      (s.reply.error = 0 → ∀ result ∈ s.results, result = TX_OK)) (fire .ack (ack env message))
      (Acknowledged env message content left) := by
  refine triple_fire (I := fun s => Stands content left [] [] [] s ∧
      (s.reply.error = 0 → ∀ result ∈ s.results, result = TX_OK)) (Triple.of_after fun s hs => ?_)
    (fun s hs => hs.1.armed ▸ hmem) fun s hs => ⟨hs.1.take .ack hleft, hs.2⟩
  refine ⟨stands_ack env hs.1, ?_⟩
  unfold ack
  rw [after_send]
  split_ifs
  · exact hs.2
  · exact hs.2

theorem leaves_transaction {guards left : List Guard} (hmem : Guard.transaction ∈ guards)
    (hleft : guards.filter (· ≠ .transaction) = left) :
    Leaves (Acknowledged env message content guards) (fire .transaction (finalize env value))
      (Concluded env message content value left) := by
  refine triple_fire (I := Acknowledged env message content left) (Triple.of_after fun s hs => ?_)
    (fun s hs => hs.stands.armed ▸ hmem) fun s hs => ⟨hs.stands.take .transaction hleft, hs.results⟩
  exact ⟨(after_finalize env hs.stands hs.results).1, (after_finalize env hs.stands hs.results).2⟩

omit [DecidableEq Sender] in
theorem leaves_reply {guards left : List Guard} (hmem : Guard.reply ∈ guards) (hleft : guards.filter (· ≠ .reply) = left) :
    Leaves (Concluded env message content value guards) (fire .reply (sendReply env message))
      (Replied env message content value left) := by
  refine triple_fire (I := Concluded env message content value left) (Triple.of_after fun s hs => ?_)
    (fun s hs => hs.stands.armed ▸ hmem) fun s hs => ⟨hs.stands.take .reply hleft, hs.settles⟩
  obtain ⟨hstands, hr, hcontext, hresults⟩ := stands_reply env message hs.stands
  refine ⟨by rw [hr]; exact hstands, by rw [hcontext]; exact hs.settles.1, ?_⟩
  unfold Honest
  rw [hr, hresults]
  exact hs.settles.2

omit [DecidableEq Sender] in
/-- The events for the monitors change nothing of what is left. -/
theorem fired_monitor (message : Request) {s : State Sender} {guards : List Guard} (h : Stands content guards a r f s)
    (hmem : Guard.monitor ∈ guards) {l : List Guard} (hleft : guards.filter (· ≠ .monitor) = l) :
    Stands content l a r f (after (fire .monitor (monitor env message) s)) ∧
      (after (fire .monitor (monitor env message) s)).context = s.context ∧
      (after (fire .monitor (monitor env message) s)).reply = s.reply ∧
      (after (fire .monitor (monitor env message) s)).results = s.results := by
  rw [fire_armed (h.armed ▸ hmem)]
  have hkeeps := (monitor_keeps env message).after { s with armed := s.armed.filter (· ≠ .monitor) }
  obtain ⟨hcontext, hrest⟩ := Prod.mk.inj hkeeps
  obtain ⟨hreply, hresults⟩ := Prod.mk.inj hrest
  exact ⟨(h.take .monitor hleft).quiet ((quiet_monitor env message).after _), hcontext, hreply, hresults⟩

omit [DecidableEq Sender] in
theorem replied_monitor {s : State Sender} {guards left : List Guard} (h : Replied env message content value guards s)
    (hmem : Guard.monitor ∈ guards) (hleft : guards.filter (· ≠ .monitor) = left) :
    Replied env message content value left (after (fire .monitor (monitor env message) s)) := by
  obtain ⟨hstands, hcontext, hreply, hresults⟩ := fired_monitor env message h.stands hmem hleft
  refine ⟨by rw [hreply]; exact hstands, by rw [hcontext]; exact h.settles.1, ?_⟩
  unfold Honest
  rw [hreply, hresults]
  exact h.settles.2

/-! ## A service that returns -/

/-- How far a call has come that is left while the guards are executed. -/
inductive Reached (message : Request) (content : Content) (value : Int) (guards : List Guard)
    (s : State Sender) : Prop
  | acknowledged (h : Acknowledged env message content (guards ++ [.transaction, .reply]) s)
  | concluded (h : Concluded env message content value (guards ++ [.reply]) s)
  | replied (h : Replied env message content value guards s)

/-- What is done at last, as far as it gets: the broker is told in any case. -/
theorem reached_inside (message : Request) (value : Int) :
    Leaves (fun s : State Sender => Stands content [.monitor, .transaction, .reply, .ack] [] [] [] s ∧
        (s.reply.error = 0 → ∀ result ∈ s.results, result = TX_OK))
      (do
        fire .ack (ack env message)
        fire .transaction (finalize env value)
        fire .reply (sendReply env message)
        fire .monitor (monitor env message))
      fun s => Reached env message content value [.monitor] s ∨ Replied env message content value [] s := by
  refine Triple.bind (Q := fun _ => Acknowledged env message content [.monitor, .transaction, .reply]) ?_ fun _ => ?_
  · exact (leaves_ack env (by decide) (by decide)).conseq (fun _ h => h) (fun _ _ h => h) fun _ _ h =>
      .inl (.acknowledged h)
  refine Triple.bind (Q := fun _ => Concluded env message content value [.monitor, .reply]) ?_ fun _ => ?_
  · exact (leaves_transaction env (by decide) (by decide)).conseq (fun _ h => h) (fun _ _ h => h) fun _ _ h =>
      .inl (.concluded h)
  refine Triple.bind (Q := fun _ => Replied env message content value [.monitor]) ?_ fun _ => ?_
  · exact (leaves_reply env (by decide) (by decide)).conseq (fun _ h => h) (fun _ _ h => h) fun _ _ h =>
      .inl (.replied h)
  · exact Triple.of_after fun s hs => .inr (replied_monitor env hs (by decide) (by decide))

omit [DecidableEq Sender] in
/-- The monitors are told at last, also of a call that is left before. -/
theorem reached_monitor {s : State Sender}
    (h : Reached env message content value [.monitor] s ∨ Replied env message content value [] s) :
    Reached env message content value [] (after (fire .monitor (monitor env message) s)) := by
  rcases h with h | h
  · cases h with
    | acknowledged h =>
      obtain ⟨hstands, _, hreply, hresults⟩ := fired_monitor env message h.stands (by decide)
        (l := [.transaction, .reply]) (by decide)
      exact .acknowledged ⟨hstands, by rw [hreply, hresults]; exact h.results⟩
    | concluded h =>
      obtain ⟨hstands, hcontext, hreply, hresults⟩ := fired_monitor env message h.stands (by decide)
        (l := [.reply]) (by decide)
      refine .concluded ⟨hstands, by rw [hcontext]; exact h.settles.1, ?_⟩
      unfold Honest
      rw [hreply, hresults]
      exact h.settles.2
    | replied h => exact .replied (replied_monitor env h (by decide) (by decide))
  · rw [fire_released (by rw [h.stands.armed]; decide)]
    exact .replied h

/-- The transactions are finalized, and the caller may be told already. -/
def Finishing (message : Request) (content : Content) (value : Int) (s : State Sender) : Prop :=
  Concluded env message content value [.reply] s ∨ Replied env message content value [] s

theorem finishing_transaction {s : State Sender} (h : Reached env message content value [] s) :
    Finishing env message content value (after (fire .transaction (finalize env value) s)) := by
  cases h with
  | acknowledged h => exact .inl ((leaves_transaction env (by decide) (by decide)).after h)
  | concluded h =>
    rw [fire_released (by rw [h.stands.armed]; decide)]
    exact .inl h
  | replied h =>
    rw [fire_released (by rw [h.stands.armed]; decide)]
    exact .inr h

omit [DecidableEq Sender] in
/-- What is replied depends on the message and the jump. -/
theorem contentOf_transformJump (code : Int) (buffer : Buffer) {reply : Reply}
    (h : contentOf reply = contentOf (transformMessage message)) :
    contentOf (transformJump code buffer reply) = contentOf (transformJump code buffer (transformMessage message)) := by
  obtain ⟨hcorrelation, hdescriptor, -, hbuffer⟩ := Content.mk.inj h
  cases buffer with
  | null => exact Content.mk.injEq .. ▸ ⟨hcorrelation, hdescriptor, rfl, rfl⟩
  | known payload => exact Content.mk.injEq .. ▸ ⟨hcorrelation, hdescriptor, rfl, rfl⟩
  | unknown => exact Content.mk.injEq .. ▸ ⟨hcorrelation, hdescriptor, rfl, hbuffer⟩

/-- A service that returns: nothing has been done, or the transactions are finalized. -/
theorem triple_returned (message : Request) (value code : Int) (buffer : Buffer) :
    Triple (Unanswered message [.errorReply, .reply, .ack]) (returned env message value code buffer)
      (fun _ => Finishing env message (contentOf (transformJump code buffer (transformMessage message))) value)
      fun _ s => Unanswered message [.errorReply, .reply, .ack] s ∨
        Finishing env message (contentOf (transformJump code buffer (transformMessage message))) value s := by
  generalize hcontent : contentOf (transformJump code buffer (transformMessage message)) = content
  have hstart : Triple (Unanswered message [.errorReply, .reply, .ack])
      (modify fun s => { s with reply := transformJump code buffer s.reply } : M Sender PUnit)
      (fun _ s => Stands content [.errorReply, .reply, .ack] [] [] [] s ∧ s.results = []) fun _ _ => False := by
    refine Triple.modify fun s hs => ⟨⟨hs.stands.armed, hs.stands.acks, hs.stands.answers, hs.stands.forwards, ?_⟩, hs.results⟩
    rw [← hcontent]
    exact contentOf_transformJump code buffer hs.stands.content
  unfold returned
  refine Triple.bind (Q := fun _ => Unanswered message [.errorReply, .reply, .ack]) ?_ fun _ => ?_
  · unfold attempt
    exact Triple.ite (fun _ => Triple.throw fun _ h => .inl h) fun _ => Triple.pure fun _ h => h
  refine Triple.bind (hstart.conseq (fun _ h => h) (fun _ _ h => h) fun _ _ h => h.elim) fun _ => ?_
  refine triple_scope (I := fun s => Stands content [.transaction, .errorReply, .reply, .ack] [] [] [] s ∧ s.results = [])
    (Q := fun _ => Reached env message content value []) (E := fun _ => Reached env message content value []) ?_
    (fun s hs => ⟨⟨congrArg _ hs.1.armed, hs.1.acks, hs.1.answers, hs.1.forwards, hs.1.content⟩, hs.2⟩)
    (fun _ s hs => finishing_transaction env hs) fun _ s hs => .inr (finishing_transaction env hs)
  refine Triple.bind (Q := fun _ s => Stands content [.transaction, .reply, .ack] [] [] [] s ∧ s.results = [])
    (Triple.modify fun s hs => ⟨hs.1.take .errorReply (by decide), hs.2⟩) fun _ => ?_
  exact triple_scope (reached_inside env message value)
    (fun s hs => ⟨⟨congrArg _ hs.1.armed, hs.1.acks, hs.1.answers, hs.1.forwards, hs.1.content⟩, fun _ => by
      rw [hs.2]
      simp⟩)
    (fun _ s hs => reached_monitor env hs) fun _ s hs => reached_monitor env hs

/-! ## A service that forwards, and one that does not get that far -/

omit [DecidableEq Sender] in
theorem unanswered_onContext {α : Type} (x : Call.M Sender α) : Triple (Unanswered message armed) (onContext x)
    (fun _ => Unanswered message armed) fun _ => Unanswered message armed := by
  intro s hs
  unfold onContext
  cases x s.context with
  | ok a c => exact ⟨⟨hs.stands.armed, hs.stands.acks, hs.stands.answers, hs.stands.forwards, hs.stands.content⟩, hs.error, hs.results⟩
  | error e c => exact ⟨⟨hs.stands.armed, hs.stands.acks, hs.stands.answers, hs.stands.forwards, hs.stands.content⟩, hs.error, hs.results⟩

omit [DecidableEq Sender] in
theorem forwarded_onContext {x : Call.M Sender Unit} {s : State Sender} (hs : Forwarded message armed a s) :
    Forwarded message armed a (after (onContext x s)) := by
  unfold onContext
  cases x s.context with
  | ok _ c => exact ⟨hs.sent, hs.stands.armed, hs.stands.acks, hs.stands.answers, rfl, hs.stands.content⟩
  | error e c => exact ⟨hs.sent, hs.stands.armed, hs.stands.acks, hs.stands.answers, rfl, hs.stands.content⟩

omit [DecidableEq Sender] in
theorem triple_attempt (place : Place) : Triple (Unanswered message armed) (attempt env place)
    (fun _ => Unanswered message armed) fun _ => Unanswered message armed := by
  unfold attempt
  exact Triple.ite (fun _ => Triple.throw fun _ h => h) fun _ => Triple.pure fun _ h => h

/-- What is sent by a forward is the request, with the service that has been left for its parent. -/
theorem triple_forward (message : Request) (service : String) (buffer : Buffer) :
    Triple (Unanswered message armed) (forward env message service buffer)
      (fun _ => Forwarded message armed []) fun _ => Unanswered message armed := by
  have hsend : ∀ (target : LookupReply) (payload : Payload), Triple (Unanswered message armed)
      (send env .forward (.forward target.process.queue
        { message with parent := message.service.name, service := target.service, buffer := payload }))
      (fun _ => Forwarded message armed []) fun _ => Unanswered message armed := by
    intro target payload
    unfold send
    refine (triple_attempt env _).bind fun _ => Triple.modify fun s hs => ?_
    have hforwards : forwards (s.sent ++ [.forward target.process.queue
        { message with parent := message.service.name, service := target.service, buffer := payload }]) =
        [(target.process.queue, { message with parent := message.service.name, service := target.service, buffer := payload })] := by
      unfold forwards
      rw [List.filterMap_append, ← forwards, hs.stands.forwards]
      rfl
    refine ⟨⟨_, _, _, hforwards⟩, hs.stands.armed, ?_, ?_, rfl, hs.stands.content⟩
    · unfold acks
      rw [List.filterMap_append, ← acks, hs.stands.acks]
      rfl
    · unfold answers
      rw [List.filterMap_append, ← answers, hs.stands.answers]
      rfl
  unfold forward
  refine Triple.bind (Q := fun _ => Unanswered message armed) (Triple.get fun _ h => h) fun s => ?_
  refine Triple.ite (fun _ => Triple.throw fun _ h => h) fun _ => ?_
  refine (unanswered_onContext _).bind fun _ => ?_
  refine Triple.onExit (Q := fun _ => Forwarded message armed []) (E := fun _ => Unanswered message armed) ?_
    (fun _ t ht => forwarded_onContext ht) fun _ t ht => (unanswered_onContext lookupDone).after ht
  refine Triple.bind (Q := fun _ => Unanswered message armed) ?_ fun payload => ?_
  · cases buffer with
    | null => exact Triple.pure fun _ h => h
    | known payload => exact Triple.pure fun _ h => h
    | unknown => exact Triple.throw fun _ h => h
  · exact (unanswered_onContext _).bind fun target => hsend target payload

/-- A forward is sent with the guards that reply released, or nothing is sent. -/
theorem triple_forwarded (message : Request) (service : String) (buffer : Buffer) :
    Triple (Unanswered message [.errorReply, .reply, .ack]) (forwarded env message service buffer)
      (fun _ => Forwarded message [.ack] []) fun _ => Unanswered message [.errorReply, .reply, .ack] := by
  unfold forwarded
  refine Triple.bind (Q := fun _ => Unanswered message [.errorReply, .reply, .ack]) (Triple.get fun _ h => h) fun s => ?_
  refine Triple.ite (fun _ => Triple.throw fun _ h => h) fun _ => Triple.ite (fun _ => Triple.throw fun _ h => h) fun _ => ?_
  refine (triple_forward env message service buffer).bind fun _ => ?_
  refine Triple.bind (Q := fun _ => Forwarded message [.errorReply, .ack] []) (Triple.modify fun t ht => ?_) fun _ =>
    Triple.modify fun t ht => ?_
  · exact ⟨ht.sent, ht.stands.take .reply (by decide)⟩
  · exact ⟨ht.sent, ht.stands.take .errorReply (by decide)⟩

omit [DecidableEq Sender] in
/-- The service is called with the transaction joined, and nothing has been sent then. -/
theorem triple_invoke (message : Request) (context : Context Sender) :
    Triple (fun s : State Sender => Unanswered message armed s ∧ s.context = context) (invoke env message)
      (fun left s => Unanswered message armed s ∧ leaves env message context = some left)
      fun _ => Unanswered message armed := by
  unfold invoke leaves
  cases hmode : env.services message.service.name with
  | none => exact Triple.throw fun _ h => h.1
  | some mode =>
    refine Triple.bind (Q := fun _ s => Unanswered message armed s ∧
        s.context = { context with transactions := joined env mode message.trid context.transactions })
      (Triple.modify ?_) fun _ => ?_
    · rintro s ⟨hs, rfl⟩
      exact ⟨⟨⟨hs.stands.armed, hs.stands.acks, hs.stands.answers, hs.stands.forwards, hs.stands.content⟩, hs.error, hs.results⟩, rfl⟩
    have hattempt : ∀ place, Triple (fun s : State Sender => Unanswered message armed s ∧
        s.context = { context with transactions := joined env mode message.trid context.transactions }) (attempt env place)
        (fun _ s => Unanswered message armed s ∧
          s.context = { context with transactions := joined env mode message.trid context.transactions })
        fun _ => Unanswered message armed := by
      intro place
      unfold attempt
      exact Triple.ite (fun _ => Triple.throw fun _ h => h.1) fun _ => Triple.pure fun _ h => h
    refine (hattempt _).bind fun _ => (hattempt _).bind fun _ => ?_
    refine Triple.bind (Q := fun s t => t = s ∧ Unanswered message armed t ∧
        t.context = { context with transactions := joined env mode message.trid context.transactions })
      (Triple.get fun s hs => ⟨rfl, hs⟩) fun s => ?_
    rintro t ⟨rfl, hs, hcontext⟩
    refine ⟨⟨⟨hs.stands.armed, hs.stands.acks, hs.stands.answers, hs.stands.forwards, hs.stands.content⟩, hs.error, hs.results⟩, ?_⟩
    rw [Option.map_some, hcontext]

/-! ## A call -/

/-- The service has been left by a `tpreturn`, and this holds of what is replied and the value it has returned. -/
def Returning (message : Request) (context : Context Sender) (P : Content → Int → State Sender → Prop)
    (s : State Sender) : Prop :=
  ∃ value code buffer, leaves env message context = some (.tpreturn value code buffer) ∧
    P (contentOf (transformJump code buffer (transformMessage message))) value s

variable {context : Context Sender}

/-- The guard for errors does what is left to do with the transactions. -/
theorem failed_errorReply {s : State Sender} (h : Unanswered message [.errorReply, .reply, .ack] s) :
    Failed message [.reply, .ack] [] [] (after (fire .errorReply (finalize env TPESVCERR) s)) := by
  rw [fire_armed (by rw [h.stands.armed]; decide)]
  have htaken := h.stands.take .errorReply (l := [.reply, .ack]) (by decide)
  obtain ⟨hstands, hsettles⟩ := after_finalize env (v := TPESVCERR) htaken fun herror => absurd herror h.error
  exact ⟨hstands, ((quiet_finalize env TPESVCERR).after _).error h.error, hsettles.1⟩

theorem ended_errorReply (context : Context Sender) {s : State Sender}
    (h : Unanswered message [.errorReply, .reply, .ack] s ∨ Forwarded message [.ack] [] s ∨
      Returning env message context (Finishing env message) s) :
    Failed message [.reply, .ack] [] [] (after (fire .errorReply (finalize env TPESVCERR) s)) ∨
      Forwarded message [.ack] [] (after (fire .errorReply (finalize env TPESVCERR) s)) ∨
      Returning env message context (Finishing env message) (after (fire .errorReply (finalize env TPESVCERR) s)) := by
  rcases h with h | h | ⟨value, code, buffer, hleaves, h⟩
  · exact .inl (failed_errorReply env h)
  · rw [fire_released (by rw [h.stands.armed]; decide)]
    exact .inr (.inl h)
  · have harmed : Guard.errorReply ∉ s.armed := by
      rcases h with h | h
      · rw [h.stands.armed]
        decide
      · rw [h.stands.armed]
        decide
    rw [fire_released harmed]
    exact .inr (.inr ⟨value, code, buffer, hleaves, h⟩)

omit [DecidableEq Sender] in
/-- The guard for the reply replies what has not been replied. -/
theorem ended_reply {s : State Sender}
    (h : Failed message [.reply, .ack] [] [] s ∨ Forwarded message [.ack] [] s ∨
      Returning env message context (Finishing env message) s) :
    (Failed message [.ack] [] (dueReply env message (after (fire .reply (sendReply env message) s)).reply)
        (after (fire .reply (sendReply env message) s)) ∨
      Forwarded message [.ack] [] (after (fire .reply (sendReply env message) s)) ∨
      Returning env message context (fun content value => Replied env message content value [])
        (after (fire .reply (sendReply env message) s))) := by
  rcases h with h | h | ⟨value, code, buffer, hleaves, h | h⟩
  · rw [fire_armed (by rw [h.stands.armed]; decide)]
    have htaken := h.stands.take .reply (l := [.ack]) (by decide)
    obtain ⟨hstands, hreply, hcontext, _⟩ := stands_reply env message htaken
    refine .inl ⟨by rw [hreply]; exact hstands, by rw [hreply]; exact h.error, by rw [hcontext]; exact h.transactions⟩
  · rw [fire_released (by rw [h.stands.armed]; decide)]
    exact .inr (.inl h)
  · exact .inr (.inr ⟨value, code, buffer, hleaves, (leaves_reply env (by decide) (by decide)).after h⟩)
  · rw [fire_released (by rw [h.stands.armed]; decide)]
    exact .inr (.inr ⟨value, code, buffer, hleaves, h⟩)

omit [DecidableEq Sender] in
theorem fired_ack (message : Request) {s : State Sender} (hs : Stands content [.ack] [] r f s) :
    Stands content [] (dueAck env message) r f (after (fire .ack (ack env message) s)) ∧
      (after (fire .ack (ack env message) s)).reply = s.reply ∧
      (after (fire .ack (ack env message) s)).context = s.context := by
  rw [fire_armed (by rw [hs.armed]; decide)]
  refine ⟨stands_ack env (hs.take .ack (by decide)), ?_, ?_⟩
  · unfold ack
    rw [after_send]
    split_ifs <;> rfl
  · unfold ack
    rw [after_send]
    split_ifs <;> rfl

omit [DecidableEq Sender] in
/-- The guard for the acknowledgement tells the broker, if that has not been done. -/
theorem ended_ack {s : State Sender}
    (h : Failed message [.ack] [] (dueReply env message s.reply) s ∨ Forwarded message [.ack] [] s ∨
      Returning env message context (fun content value => Replied env message content value []) s) :
    (Failed message [] (dueAck env message) (dueReply env message (after (fire .ack (ack env message) s)).reply)
        (after (fire .ack (ack env message) s)) ∨
      Forwarded message [] (dueAck env message) (after (fire .ack (ack env message) s)) ∨
      Returning env message context (fun content value => Replied env message content value [])
        (after (fire .ack (ack env message) s))) := by
  rcases h with h | h | ⟨value, code, buffer, hleaves, h⟩
  · obtain ⟨hstands, hreply, hcontext⟩ := fired_ack env message h.stands
    refine .inl ⟨by rw [hreply]; exact hstands, by rw [hreply]; exact h.error, by rw [hcontext]; exact h.transactions⟩
  · obtain ⟨hstands, _, _⟩ := fired_ack env message h.stands
    exact .inr (.inl ⟨hstands.forwards ▸ h.sent, hstands.forwards.symm ▸ hstands⟩)
  · rw [fire_released (by rw [h.stands.armed]; decide)]
    exact .inr (.inr ⟨value, code, buffer, hleaves, h⟩)

/-- Where a call ends: with an error, with a forward, or as the service has left it. -/
theorem triple_dispatch (message : Request) (context : Context Sender) (caller : Option Transaction.ID) :
    Triple (fun s : State Sender => s = State.make context caller) (dispatch env message)
      (fun _ s => Failed message [] (dueAck env message) (dueReply env message s.reply) s ∨
        Forwarded message [] (dueAck env message) s ∨
        Returning env message context (fun content value => Replied env message content value []) s)
      fun _ s => Failed message [] (dueAck env message) (dueReply env message s.reply) s ∨
        Forwarded message [] (dueAck env message) s ∨
        Returning env message context (fun content value => Replied env message content value []) s := by
  unfold dispatch
  refine triple_scope (I := fun s => s = { State.make context caller with armed := [.ack] }) ?_ (fun s hs => by rw [hs]; rfl)
    (fun _ s hs => ended_ack env hs) fun _ s hs => ended_ack env hs
  refine Triple.bind (Q := fun _ s => Unanswered message [.ack] s ∧ s.context = context) (Triple.modify fun s hs => ?_) fun _ => ?_
  · rw [hs]
    exact ⟨⟨⟨rfl, rfl, rfl, rfl, rfl⟩, show TPESVCERR ≠ 0 by decide, rfl⟩, rfl⟩
  have harm : ∀ (guard : Guard) (guards : List Guard) (s : State Sender), Unanswered message guards s ∧ s.context = context →
      Unanswered message (guard :: guards) { s with armed := guard :: s.armed } ∧ s.context = context :=
    fun guard guards s hs => ⟨⟨⟨congrArg _ hs.1.stands.armed, hs.1.stands.acks, hs.1.stands.answers, hs.1.stands.forwards,
      hs.1.stands.content⟩, hs.1.error, hs.1.results⟩, hs.2⟩
  refine triple_scope (I := fun s => Unanswered message [.reply, .ack] s ∧ s.context = context) ?_ (harm _ _)
    (fun _ s hs => ended_reply env hs) fun _ s hs => ended_reply env hs
  refine triple_scope (I := fun s => Unanswered message [.errorReply, .reply, .ack] s ∧ s.context = context) ?_ (harm _ _)
    (fun _ s hs => ended_errorReply env context hs) fun _ s hs => ended_errorReply env context hs
  refine Triple.bind ((triple_invoke env message context).conseq (fun _ h => h) (fun _ _ h => h) fun _ _ h => .inl h) fun left => ?_
  cases left with
  | returned => exact Triple.throw fun _ h => .inl h.1
  | threw => exact Triple.throw fun _ h => .inl h.1
  | forward service buffer =>
    exact (triple_forwarded env message service buffer).conseq (fun _ h => h.1) (fun _ _ h => .inr (.inl h)) fun _ _ h => .inl h
  | tpreturn value code buffer =>
    refine Triple.of_forall fun s hs => ?_
    refine (triple_returned env message value code buffer).conseq (fun t ht => by rw [ht]; exact hs.1)
      (fun _ _ h => .inr (.inr ⟨value, code, buffer, hs.2, h⟩)) fun _ _ h => ?_
    exact h.imp id fun h => .inr ⟨value, code, buffer, hs.2, h⟩

/-- Whatever the service does and whatever fails, the broker is told once, and the reply is for the call it is
made for. Either the request goes on to another service, and no reply is sent, or the reply is sent that is due
and all transactions are finalized. A reply without an error holds what the service has left with, and then all
that was completed has gone well. -/
theorem dispatched (message : Request) (context : Context Sender) (caller : Option Transaction.ID) :
    acks (handle env message context caller).sent = dueAck env message ∧
    (handle env message context caller).reply.correlation = message.correlation ∧
    (handle env message context caller).reply.descriptor = message.descriptor ∧
    ((answers (handle env message context caller).sent = [] ∧
        ∃ queue service buffer, forwards (handle env message context caller).sent =
          [(queue, { message with parent := message.service.name, service, buffer })]) ∨
      (forwards (handle env message context caller).sent = [] ∧
        answers (handle env message context caller).sent = dueReply env message (handle env message context caller).reply ∧
        (handle env message context caller).context.transactions = [] ∧
        ((handle env message context caller).reply.error = 0 → ∃ value code buffer,
          leaves env message context = some (.tpreturn value code buffer) ∧ (value = TPESVCERR ∨ value = TPSUCCESS) ∧
          contentOf (handle env message context caller).reply = contentOf (transformJump code buffer (transformMessage message)) ∧
          ∀ result ∈ (handle env message context caller).results, result = TX_OK))) := by
  have hcontent : ∀ {content : Content} {reply : Reply}, contentOf reply = content →
      content.correlation = message.correlation → content.descriptor = message.descriptor →
      reply.correlation = message.correlation ∧ reply.descriptor = message.descriptor := by
    rintro _ reply rfl hcorrelation hdescriptor
    exact ⟨hcorrelation, hdescriptor⟩
  have h := (triple_dispatch env message context caller).after rfl
  rw [← handle] at h
  rcases h with h | h | ⟨value, code, buffer, hleaves, h⟩
  · obtain ⟨hcorrelation, hdescriptor⟩ := hcontent h.stands.content rfl rfl
    refine ⟨h.stands.acks, hcorrelation, hdescriptor, .inr ⟨h.stands.forwards, h.stands.answers, h.transactions, ?_⟩⟩
    exact fun herror => absurd herror h.error
  · obtain ⟨hcorrelation, hdescriptor⟩ := hcontent h.stands.content rfl rfl
    exact ⟨h.stands.acks, hcorrelation, hdescriptor, .inl ⟨h.stands.answers, h.sent⟩⟩
  · have hjump : contentOf (transformJump code buffer (transformMessage message)) =
        ⟨message.correlation, message.descriptor, code, (transformJump code buffer (transformMessage message)).buffer⟩ := by
      cases buffer <;> rfl
    obtain ⟨hcorrelation, hdescriptor⟩ := hcontent h.stands.content (by rw [hjump]) (by rw [hjump])
    refine ⟨h.stands.acks, hcorrelation, hdescriptor, .inr ⟨h.stands.forwards, h.stands.answers, h.settles.1, fun herror => ?_⟩⟩
    exact ⟨value, code, buffer, hleaves, (h.settles.2 herror).1, h.stands.content, (h.settles.2 herror).2⟩

end

end Casual.Server
