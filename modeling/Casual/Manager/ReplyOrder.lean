/-
The order of the replies to the owner of a transaction: a commit reply that is sent persistently is not
put on a queue before the prepare reply that was made before it.
-/
import Casual.Manager.Sending

namespace Casual.Manager

open Casual.Common Casual.Communication Casual.Lib
open Casual.Common.Transaction (ID XID)

/-! ## Replies of a prepare and of a commit -/

/-- The reply of a commit that has been decided. -/
def Reply.isPrepare : Reply → Bool
  | .commit _ _ .prepare _ => true
  | _ => false

/-- The reply of a commit that is done. -/
def Reply.isCommit : Reply → Bool
  | .commit _ _ .commit _ => true
  | _ => false

/-- A prepare reply and a commit reply of one transaction. -/
structure Pair (p c : Nat × Reply) : Prop where
  prepare : p.2.isPrepare = true
  commit : c.2.isCommit = true
  trid : p.2.trid.xid = c.2.trid.xid

/-- The manager, and every reply it has made, in the order it made them. -/
structure Replying where
  world : World
  made : List (Nat × Reply)

/-- No commit reply has been put on a queue before a prepare reply of its transaction that was made before it,
unless the queue for that was gone. -/
def InOrder (r : Replying) : Prop :=
  ∀ p c, Pair p c → p ∈ r.made → r.made.idxOf p < r.made.idxOf c → c ∈ r.world.delivered →
    p ∈ r.world.dropped ∨ r.world.delivered.idxOf p < r.world.delivered.idxOf c

section

variable (env : Environment)

/-- The replies a message makes: sent at once, or to be sent persistently. -/
def madeBy (w w' : World) : List (Nat × Reply) :=
  w'.delivered.drop w.delivered.length ++ w'.dropped.drop w.dropped.length ++
    w'.state.persistentReplies.drop w.state.persistentReplies.length

/-- An event and the replies it makes. -/
def Replying.step (r : Replying) (e : Event) : Replying where
  world := r.world.step env e
  made :=
    match e with
    | .write => r.made
    | e => r.made ++ madeBy r.world (r.world.step env e)

/-- The runs of the manager, from when it has started. -/
def replying : Machine Replying Event where
  init r := ∃ resources log, Started resources log ∧ r = ⟨World.start resources log, []⟩
  admits r e := r.world.admits e
  step := Replying.step env

/-! ## When the order is kept -/

/-- The resource of a reply with what it has voted. -/
def voted (message : ResourceReply) (t : Transaction) (r : Resource) : Transaction :=
  t.setResource { r with
    result := Result.convert message.state
    stage := if Result.convert message.state = .XA_RDONLY then .notInvolved else .prepareReplied }

/-- A commit reply for the transaction is sent at once: it has no resource, one resource that has committed, or
resources that have only read. -/
def atOnce (w : World) (e : Event) (xid : XID) : Prop :=
  match e with
  | .commit message => message.trid.xid = xid ∧
      (involved env w.state ((w.state.find message.trid).getD (.new message.trid)) message.resources).resources = []
  | .reply .prepare message => message.trid.xid = xid ∧ ∃ t r, w.state.find message.trid = some t ∧
      (t.resources.find? fun r => r.id == message.resource) = some r ∧ (voted message t r).results = .XA_RDONLY
  | .reply .commit message => message.trid.xid = xid ∧ ∃ t, w.state.find message.trid = some t ∧ t.resources.length ≤ 1
  | _ => False

/-- What keeps the order: a commit reply that is tried without blocking, and finds room, comes after each prepare
reply that was made before it, and that has found room; and none is sent at once while a prepare reply waits. -/
def keepsOrder (r : Replying) : Event → Prop
  | .write =>
    ∀ p c, Pair p c → p ∈ r.world.state.persistentReplies → p ∉ r.world.delivered → p ∉ r.world.dropped →
      r.made.idxOf p < r.made.idxOf c → ∀ j,
        (env.order r.world.readings r.world.state.persistentReplies)[j]? = some c →
        env.push (r.world.readings + j) c.1 = .accepted →
        ∃ i < j, (env.order r.world.readings r.world.state.persistentReplies)[i]? = some p ∧
          env.push (r.world.readings + i) p.1 ≠ .full
  | e => ∀ p ∈ r.world.state.persistentReplies, p.2.isPrepare = true → ¬ atOnce env r.world e p.2.trid.xid

end

/-! ## What a handler does with replies -/

/-- Replies are made, and of those that are sent at once the commit replies are for the transactions of `A`. -/
structure Tells (A : XID → Prop) (w w' : World) : Prop where
  persistent : w.state.persistentReplies <+: w'.state.persistentReplies
  delivered : ∃ out, w'.delivered = w.delivered ++ out ∧ ∀ c ∈ out, c.2.isCommit = true → A c.2.trid.xid
  dropped : w.dropped <+: w'.dropped

variable {A B : XID → Prop}

theorem Tells.of_eq {w w' : World} (hp : w'.state.persistentReplies = w.state.persistentReplies)
    (hd : w'.delivered = w.delivered) (hr : w'.dropped = w.dropped) : Tells A w w' :=
  ⟨hp ▸ List.prefix_rfl, ⟨[], by rw [hd, List.append_nil], nofun⟩, hr ▸ List.prefix_rfl⟩

instance : Std.Refl (Tells A) := ⟨fun _ => .of_eq rfl rfl rfl⟩

theorem Tells.trans {w w' w'' : World} (h : Tells A w w') (h' : Tells A w' w'') : Tells A w w'' := by
  obtain ⟨out, hout, hall⟩ := h.delivered
  obtain ⟨out', hout', hall'⟩ := h'.delivered
  refine ⟨h.persistent.trans h'.persistent, ⟨out ++ out', ?_, ?_⟩, h.dropped.trans h'.dropped⟩
  · rw [hout', hout, List.append_assoc]
  · intro c hc hcommit
    exact (List.mem_append.1 hc).elim (fun hc => hall c hc hcommit) fun hc => hall' c hc hcommit

instance : IsTrans World (Tells A) := ⟨fun _ _ _ => Tells.trans⟩

theorem Tells.mono {w w' : World} (h : Tells A w w') (hAB : ∀ x, A x → B x) : Tells B w w' := by
  obtain ⟨out, hout, hall⟩ := h.delivered
  exact ⟨h.persistent, ⟨out, hout, fun c hc hcommit => hAB _ (hall c hc hcommit)⟩, h.dropped⟩

/-- The replies that wait, and those that have been sent. -/
def heard (w : World) : List (Nat × Reply) × List (Nat × Reply) × List (Nat × Reply) :=
  (w.state.persistentReplies, w.delivered, w.dropped)

theorem tells {α : Type} {x : M α} (h : Moves (Keeps heard) x) : Moves (Tells A) x :=
  h.mono fun w w' hk => by
    have hk : heard w' = heard w := hk
    exact .of_eq (congrArg Prod.fst hk) (congrArg (·.2.1) hk) (congrArg (·.2.2) hk)

section

variable (env : Environment)

theorem keeps_modifyState {f : State → State} (h : ∀ s, (f s).persistentReplies = s.persistentReplies) :
    Moves (Keeps heard) (modifyState f) :=
  ⟨fun w => congrArg (fun l => (l, w.delivered, w.dropped)) (h w.state)⟩

theorem aside_heard : Aside heard := ⟨fun _ _ _ _ _ => rfl⟩

theorem keeps_sendRequest (phase : Phase) (t : Transaction) (filter : Resource → Bool) (newStage : Stage) (flags : Nat) :
    Moves (Keeps heard) (sendRequest env phase t filter newStage flags) := by
  unfold sendRequest
  obtain ⟨resources, others⟩ := env.partition filter t.resources
  dsimp only
  apply Moves.bind (keeps_modifyState (by intro _; rfl))
  intro _
  apply Moves.bind (by constructor; intro _; rfl)
  intro _
  apply Moves.bind (aside_heard.resourceRequest env _ _)
  intro left
  exact .ite (keeps_modifyState fun _ => rfl) (.pure _)

theorem keeps_done (i : Instance) : Moves (Keeps heard) (done env i) := aside_heard.done env (fun _ _ => rfl) i

theorem ensure_persistentReplies (trid : ID) (s : State) : (s.ensure trid).persistentReplies = s.persistentReplies := by
  unfold State.ensure; split_ifs <;> rfl

theorem keeps_involve (trid : ID) (ids : List Nat) : Moves (Keeps heard) (involve env trid ids) := by
  unfold involve
  apply Moves.bind (keeps_modifyState (ensure_persistentReplies trid))
  intro _
  apply Moves.bind .get
  intro w
  apply Moves.bind (keeps_modifyState (by intro _; rfl))
  intro _
  exact .pure _

theorem keeps_logPrepare (trid : ID) : Moves (Keeps heard) (logPrepare trid) := by
  constructor
  intro w
  unfold logPrepare
  cases w.state.log.prepare trid with
  | some log => exact rfl
  | none => exact rfl

theorem tells_persistentReply (reply : Reply) (target : Process) : Moves (Tells A) (persistentReply reply target) :=
  ⟨fun _ => ⟨List.prefix_append _ _, ⟨[], (List.append_nil _).symm, nofun⟩, List.prefix_rfl⟩⟩

/-- A reply that is sent at once is put on the queue, dropped, or waits. -/
theorem tells_sendReply {reply : Reply} (target : Process) (h : reply.isCommit = true → A reply.trid.xid) :
    Moves (Tells A) (sendReply env reply target) := by
  unfold sendReply
  have hsend : Moves (Tells A) (persistentSend env (target.queue, reply)) := by
    constructor
    intro w
    unfold persistentSend
    cases env.push w.readings target.queue with
    | accepted =>
      refine ⟨List.prefix_rfl, ⟨[(target.queue, reply)], rfl, ?_⟩, List.prefix_rfl⟩
      rintro c hc hcommit
      rw [List.mem_singleton.1 hc] at hcommit ⊢
      exact h hcommit
    | full => exact .of_eq rfl rfl rfl
    | gone => exact ⟨List.prefix_rfl, ⟨[], (List.append_nil _).symm, nofun⟩, List.prefix_append _ _⟩
  apply Moves.bind hsend
  intro b
  exact .ite (tells_persistentReply _ _) (.pure _)

theorem tells_basicPrepare (message : ResourceReply) (t : Transaction) (r : Resource)
    (h : (voted message t r).results = .XA_RDONLY → A message.trid.xid) :
    Moves (Tells A) (basicPrepare env message t r) := by
  unfold basicPrepare
  apply Moves.bind (tells (keeps_modifyState (by intro _; rfl)))
  intro _
  apply Moves.ite _ (.pure _)
  -- the results decide whether the transaction ends here
  split
  next hresults =>
    apply Moves.bind (tells (keeps_modifyState (by intro _; rfl)))
    intro _
    apply Moves.bind (tells_sendReply env _ fun _ => h hresults)
    intro _
    exact .pure _
  · apply Moves.bind (tells (keeps_logPrepare _))
    intro _
    apply Moves.bind (tells_persistentReply _ _)
    intro _
    apply Moves.bind (tells (keeps_sendRequest env _ _ _ _ _))
    intro _
    exact .pure _
  · apply Moves.bind (tells (keeps_sendRequest env _ _ _ _ _))
    intro _
    exact .pure _

theorem tells_basicCommitReply (message : ResourceReply) (t : Transaction) (r : Resource)
    (h : t.resources.length ≤ 1 → A message.trid.xid) : Moves (Tells A) (basicCommitReply env message t r) := by
  unfold basicCommitReply
  apply Moves.bind (tells (keeps_modifyState (by intro _; rfl)))
  intro _
  apply Moves.ite _ (.pure _)
  cases (t.setResource { r with stage := .commitReplied }).results with
  | XA_OK =>
    by_cases hlength : (t.setResource { r with stage := .commitReplied }).resources.length ≤ 1
    · rw [if_pos hlength]
      apply Moves.bind (tells_sendReply env _ fun _ => h (by simpa [Transaction.setResource] using hlength))
      intro _
      apply Moves.bind (tells (keeps_modifyState (by intro _; rfl)))
      intro _
      exact .pure _
    · rw [if_neg hlength]
      apply Moves.bind (tells_persistentReply _ _)
      intro _
      apply Moves.bind (tells (keeps_modifyState (by intro _; rfl)))
      intro _
      exact .pure _
  | _ =>
    apply Moves.bind (tells_persistentReply _ _)
    intro _
    exact .pure _

theorem tells_basicRollbackReply (message : ResourceReply) (t : Transaction) (r : Resource) :
    Moves (Tells A) (basicRollbackReply env message t r) := by
  unfold basicRollbackReply
  apply Moves.bind (tells (keeps_modifyState (by intro _; rfl)))
  intro _
  apply Moves.ite _ (.pure _)
  apply Moves.ite
  · apply Moves.bind (tells_sendReply env _ nofun)
    intro _
    apply Moves.bind (tells (keeps_modifyState (by intro _; rfl)))
    intro _
    exact .pure _
  · apply Moves.bind (tells_persistentReply _ _)
    intro _
    exact .pure _

theorem tells_userReplyWrapper {handler : OwnerRequest → M Unit} {error : OwnerRequest → Int → Reply}
    (message : OwnerRequest) (h : Moves (Tells A) (handler message))
    (herror : ∀ code, (error message code).isCommit = false) :
    Moves (Tells A) (userReplyWrapper env handler error message) := by
  unfold userReplyWrapper
  have hsend : ∀ code, Moves (Tells A) (sendReply env (error message code) message.process) := fun code =>
    tells_sendReply env _ fun hcommit => absurd hcommit (by rw [herror]; simp)
  apply Moves.tryCatch h
  intro e
  cases e with
  | user code => exact hsend code
  | _ => exact hsend _

theorem tells_basicRollback (message : OwnerRequest) : Moves (Tells A) (basicRollback env message) := by
  unfold basicRollback
  apply Moves.bind (tells (keeps_involve env _ _))
  intro t
  apply Moves.ite
  · apply Moves.bind (tells (keeps_modifyState (by intro _; rfl)))
    intro _
    exact tells_sendReply env _ nofun
  · exact tells (keeps_sendRequest env _ _ _ _ _)

theorem tells_rollback (message : OwnerRequest) : Moves (Tells A) (rollback env message) :=
  tells_userReplyWrapper env message (tells_basicRollback env message) fun _ => rfl

theorem tells_exit (pid : Nat) : Moves (Tells A) (exit env pid) := by
  unfold exit
  apply Moves.bind .get
  intro w
  exact .forM (fun trid => tells_rollback env _) _

theorem tells_connect (message : ConnectReply) : Moves (Tells A) (connect env message) := by
  have hconnected : Moves (Tells A) (do
      let s := (← get).state
      if !s.connected && s.resources.all fun p => p.instances.any Instance.running then
        let _ ← push env env.broker
        modifyState fun s => { s with connected := true } : M Unit) := by
    apply Moves.bind .get
    intro w
    apply Moves.ite _ (.pure _)
    apply Moves.bind (tells (aside_heard.push env _))
    intro _
    exact tells (keeps_modifyState (by intro _; rfl))
  unfold connect
  apply Moves.bind .get
  intro w
  cases w.state.getInstance message.resource message.process.pid with
  | none => exact hconnected
  | some i =>
    apply Moves.ite
    · apply Moves.bind (tells (keeps_modifyState (by intro _; rfl)))
      intro _
      exact .bind (tells (keeps_done env _)) fun _ => hconnected
    · exact .bind (tells (keeps_modifyState (by intro _; rfl))) fun _ => hconnected

/-! ## What an event does with replies -/

theorem aside_transactions : Aside fun w : World => w.state.transactions := ⟨fun _ _ _ _ _ => rfl⟩

theorem transactions_done (i : Instance) : Moves (Keeps fun w : World => w.state.transactions) (done env i) :=
  aside_transactions.done env (fun _ _ => rfl) i

/-- A reply of a resource finds the transaction as it was. -/
theorem tells_wrapper {handler : ResourceReply → Transaction → Resource → M Bool} {message : ResourceReply} {w : World}
    (h : ∀ t r, w.state.find message.trid = some t →
      (t.resources.find? fun r => r.id == message.resource) = some r → Moves (Tells A) (handler message t r)) :
    Tells A w (after (wrapper env handler message w)) := by
  unfold wrapper
  have hget : (get : M World) w = .ok w w := rfl
  rw [bind_ok hget]
  cases w.state.getInstance message.resource message.process.pid with
  | none => exact Std.Refl.refl w
  | some i =>
    dsimp only
    have htells := (tells (A := A) (keeps_done env i)).after w
    have hkeeps := (transactions_done env i).after w
    cases hdone : done env i w with
    | error e w' =>
      rw [hdone] at htells
      rw [bind_error hdone]
      exact htells
    | ok _ w' =>
      rw [hdone] at htells hkeeps
      rw [bind_ok hdone]
      have hget' : (get : M World) w' = .ok w' w' := rfl
      rw [bind_ok hget']
      have hfind : w'.state.find message.trid = w.state.find message.trid := by
        unfold State.find
        rw [show w'.state.transactions = w.state.transactions from hkeeps]
      rw [hfind]
      refine htells.trans ?_
      cases ht : w.state.find message.trid with
      | none => exact Std.Refl.refl w'
      | some t =>
        cases hr : t.resources.find? fun r => r.id == message.resource with
        | none =>
          simp only [hr]
          exact Std.Refl.refl w'
        | some r =>
          simp only [hr]
          refine Moves.after (.bind (h t r ht hr) fun b => .ite (tells (keeps_modifyState ?_)) (.pure _)) w'
          intro _
          rfl

/-- The transaction a request finds, or adds. -/
def State.known (s : State) (trid : ID) : Transaction := (s.find trid).getD (.new trid)

theorem find_ensure (trid : ID) (s : State) : (s.ensure trid).find trid = some (s.known trid) := by
  unfold State.ensure State.known
  cases h : s.find trid with
  | some t => simp [h]
  | none =>
    unfold State.find at h ⊢
    simp [h, List.find?_append, Transaction.new]

theorem resources_ensure (trid : ID) (s : State) : (s.ensure trid).resources = s.resources := by
  unfold State.ensure; split_ifs <;> rfl

/-- What a request makes of its transaction. -/
theorem involve_eq (trid : ID) (ids : List Nat) (w : World) :
    involve env trid ids w = .ok (involved env w.state (w.state.known trid) ids)
      { w with state := (w.state.ensure trid).setTransaction (involved env w.state (w.state.known trid) ids) } := by
  have hinvolved : involved env (w.state.ensure trid) (((w.state.ensure trid).find trid).getD (.new trid)) ids =
      involved env w.state (w.state.known trid) ids := by
    rw [find_ensure, Option.getD_some]
    unfold involved
    rw [resources_ensure]
  rw [← hinvolved]
  rfl

theorem tells_basicCommit {message : OwnerRequest} {w : World}
    (h : (involved env w.state ((w.state.find message.trid).getD (.new message.trid)) message.resources).resources = [] →
      A message.trid.xid) : Tells A w (after (basicCommit env message w)) := by
  have hinvolve := involve_eq env message.trid message.resources w
  have htells := (tells (A := A) (keeps_involve env message.trid message.resources)).after w
  rw [hinvolve] at htells
  unfold basicCommit
  rw [bind_ok hinvolve]
  refine htells.trans (Moves.after ?_ _)
  refine Moves.ite (.bind (.throw _) fun _ => ?_) ?_
  -- what is done is the same on both sides of the check of the stage
  all_goals
    split
    next hlength =>
      apply Moves.bind (tells (keeps_modifyState (by intro _; rfl)))
      intro _
      exact tells_sendReply env _ fun _ => h (List.length_eq_zero_iff.1 hlength)
    · exact tells (keeps_sendRequest env _ _ _ _ _)
    · exact tells (keeps_sendRequest env _ _ _ _ _)

theorem tells_commit {message : OwnerRequest} {w : World}
    (h : (involved env w.state ((w.state.find message.trid).getD (.new message.trid)) message.resources).resources = [] →
      A message.trid.xid) : Tells A w (after (commit env message w)) := by
  have hcommit := tells_basicCommit (A := A) env h
  have hsend : ∀ code, Moves (Tells A)
      (sendReply env (.commit message.trid message.correlation .error code) message.process) := fun code =>
    tells_sendReply env _ nofun
  unfold commit userReplyWrapper
  cases hbasic : basicCommit env message w with
  | ok _ w' =>
    rw [hbasic] at hcommit
    rw [tryCatch_ok hbasic]
    exact hcommit
  | error e w' =>
    rw [hbasic] at hcommit
    rw [tryCatch_error hbasic]
    refine hcommit.trans ?_
    cases e with
    | user code => exact (hsend code).after w'
    | _ => exact (hsend _).after w'

/-- Only a transaction that ends at once is told of at once. -/
theorem tells_handle {e : Event} (he : e ≠ .write) (w : World) : Tells (atOnce env w e) w (after (handle env e w)) := by
  cases e with
  | involved message =>
    exact (tells (.bind (keeps_involve env _ _) fun _ => .pure _) : Moves _ (resourceInvolved env message)).after w
  | commit message => exact tells_commit env fun h => ⟨rfl, h⟩
  | rollback message => exact (tells_rollback env message).after w
  | exit pid => exact (tells_exit env pid).after w
  | connect message => exact (tells_connect env message).after w
  | reply phase message =>
    apply tells_wrapper
    intro t r ht hr
    cases phase with
    | prepare => exact tells_basicPrepare env message t r fun h => ⟨rfl, t, r, ht, hr, h⟩
    | commit => exact tells_basicCommitReply env message t r fun h => ⟨rfl, t, ht, h⟩
    | rollback => exact tells_basicRollbackReply env message t r
  | write => exact absurd rfl he

theorem tells_step {e : Event} (he : e ≠ .write) (w : World) : Tells (atOnce env w e) w (w.step env e) := by
  have hanswer : ∀ x, atOnce env (w.answer e) e x = atOnce env w e x := by
    intro x
    cases e <;> rfl
  have h := tells_handle env he (w.answer e)
  have hw : Tells (atOnce env w e) w (after (handle env e (w.answer e))) := by
    refine Tells.trans (.of_eq ?_ ?_ ?_) (h.mono fun x hx => hanswer x ▸ hx)
    · cases e <;> rfl
    · cases e <;> rfl
    · cases e <;> rfl
  unfold World.step
  cases hh : handle env e (w.answer e) with
  | ok _ w' =>
    rw [hh] at hw
    exact hw
  | error _ w' =>
    rw [hh] at hw
    exact hw.trans (.of_eq rfl rfl rfl)

/-! ## What is tried in a round -/

/-- The replies are tried in turn: each is put on its queue, dropped as that is gone, or left. -/
theorem flushReplies_spec : ∀ (l : List (Nat × Reply)) (w : World), ∃ left out drop,
    flushReplies env l w = .ok left { w with
      readings := w.readings + l.length
      delivered := w.delivered ++ out
      dropped := w.dropped ++ drop } ∧
    (∀ r ∈ l, r ∈ out ∨ r ∈ drop ∨ r ∈ left) ∧ left ⊆ l ∧ out ⊆ l ∧
    ∀ p c, p ≠ c → c ∈ out →
      (∀ j, l[j]? = some c → env.push (w.readings + j) c.1 = .accepted →
        ∃ i < j, l[i]? = some p ∧ env.push (w.readings + i) p.1 ≠ .full) →
      p ∈ drop ∨ out.idxOf p < out.idxOf c
  | [], w => by
    refine ⟨[], [], [], ?_, nofun, List.Subset.refl _, List.Subset.refl _, nofun⟩
    simp [flushReplies]
    rfl
  | m :: l, w => by
    -- the condition for the rest, when the first is not what had to come before
    have hrest : ∀ {p c : Nat × Reply}, (p = m → env.push w.readings m.1 = .full) →
        (∀ j, (m :: l)[j]? = some c → env.push (w.readings + j) c.1 = .accepted →
          ∃ i < j, (m :: l)[i]? = some p ∧ env.push (w.readings + i) p.1 ≠ .full) →
        ∀ j, l[j]? = some c → env.push (w.readings + 1 + j) c.1 = .accepted →
          ∃ i < j, l[i]? = some p ∧ env.push (w.readings + 1 + i) p.1 ≠ .full := by
      intro p c hm h j hj hpush
      rw [Nat.add_assoc, Nat.add_comm 1 j] at hpush
      obtain ⟨i, hi, hip, hfull⟩ := h (j + 1) hj hpush
      cases i with
      | zero =>
        obtain rfl : m = p := Option.some.inj hip
        exact absurd (hm rfl) hfull
      | succ i =>
        rw [← Nat.add_assoc, Nat.add_right_comm] at hfull
        exact ⟨i, Nat.lt_of_succ_lt_succ hi, hip, hfull⟩
    unfold flushReplies
    cases hpush : env.push w.readings m.1 with
    | full =>
      obtain ⟨left, out, drop, h, hall, hleft, hout, horder⟩ := flushReplies_spec l { w with readings := w.readings + 1 }
      have hsend : persistentSend env m w = .ok false { w with readings := w.readings + 1 } := by
        unfold persistentSend; rw [hpush]
      rw [bind_ok hsend]
      refine ⟨m :: left, out, drop, ?_, ?_, List.cons_subset_cons _ hleft, List.subset_cons_of_subset _ hout, ?_⟩
      · refine (bind_ok h).trans ?_
        rw [List.length_cons, Nat.add_comm l.length 1, ← Nat.add_assoc]
        rfl
      · rintro r (_ | ⟨_, hr⟩)
        · exact .inr (.inr List.mem_cons_self)
        · exact (hall r hr).imp id fun h => h.imp id (List.mem_cons_of_mem _)
      · exact fun p c hne hc h => horder p c hne hc (hrest (fun _ => hpush) h)
    | gone =>
      obtain ⟨left, out, drop, h, hall, hleft, hout, horder⟩ :=
        flushReplies_spec l { w with readings := w.readings + 1, dropped := w.dropped ++ [m] }
      have hsend : persistentSend env m w = .ok true { w with readings := w.readings + 1, dropped := w.dropped ++ [m] } := by
        unfold persistentSend; rw [hpush]
      rw [bind_ok hsend]
      refine ⟨left, out, m :: drop, ?_, ?_, List.subset_cons_of_subset _ hleft, List.subset_cons_of_subset _ hout, ?_⟩
      · refine Eq.trans h ?_
        rw [List.length_cons, Nat.add_comm l.length 1, ← Nat.add_assoc, List.append_assoc, List.singleton_append]
      · rintro r (_ | ⟨_, hr⟩)
        · exact .inr (.inl List.mem_cons_self)
        · exact (hall r hr).imp id fun h => h.imp (List.mem_cons_of_mem _) id
      · intro p c hne hc h
        by_cases hp : p = m
        · exact .inl (hp ▸ List.mem_cons_self)
        · exact (horder p c hne hc (hrest (fun h => absurd h hp) h)).imp (List.mem_cons_of_mem _) id
    | accepted =>
      obtain ⟨left, out, drop, h, hall, hleft, hout, horder⟩ :=
        flushReplies_spec l { w with readings := w.readings + 1, delivered := w.delivered ++ [m] }
      have hsend : persistentSend env m w =
          .ok true { w with readings := w.readings + 1, delivered := w.delivered ++ [m] } := by
        unfold persistentSend; rw [hpush]
      rw [bind_ok hsend]
      refine ⟨left, m :: out, drop, ?_, ?_, List.subset_cons_of_subset _ hleft, List.cons_subset_cons _ hout, ?_⟩
      · refine Eq.trans h ?_
        rw [List.length_cons, Nat.add_comm l.length 1, ← Nat.add_assoc, List.append_assoc, List.singleton_append]
      · rintro r (_ | ⟨_, hr⟩)
        · exact .inl List.mem_cons_self
        · exact (hall r hr).imp (List.mem_cons_of_mem _) id
      · intro p c hne hc h
        have hcm : c ≠ m := by
          rintro rfl
          obtain ⟨i, hi, -⟩ := h 0 rfl hpush
          exact absurd hi (Nat.not_lt_zero i)
        rw [List.idxOf_cons_ne _ (Ne.symm hcm)]
        by_cases hp : p = m
        · rw [hp, List.idxOf_cons_self]
          exact .inr (Nat.succ_pos _)
        · rw [List.idxOf_cons_ne _ (Ne.symm hp)]
          refine (horder p c hne ?_ (hrest (fun h => absurd h hp) h)).imp id Nat.succ_lt_succ
          exact (List.mem_cons.1 hc).resolve_left hcm

theorem keeps_flushRequests : ∀ rs : List PendingRequest, Moves (Keeps heard) (flushRequests env rs)
  | [] => .pure _
  | request :: rest => by
    have ih := keeps_flushRequests rest
    unfold flushRequests
    apply Moves.bind (aside_heard.resourceRequest env _ _)
    intro left
    apply Moves.ite
    · apply Moves.bind (keeps_modifyState (by intro _; rfl))
      intro _
      exact ih
    · exact ih

/-- What a round does with the replies that wait. -/
structure Flushes (w w' : World) (out drop : List (Nat × Reply)) : Prop where
  delivered : w'.delivered = w.delivered ++ out
  dropped : w'.dropped = w.dropped ++ drop
  all : ∀ r ∈ w.state.persistentReplies, r ∈ out ∨ r ∈ drop ∨ r ∈ w'.state.persistentReplies
  left : w'.state.persistentReplies ⊆ w.state.persistentReplies
  put : out ⊆ w.state.persistentReplies
  order : ∀ p c, p ≠ c → c ∈ out →
    (∀ j, (env.order w.readings w.state.persistentReplies)[j]? = some c → env.push (w.readings + j) c.1 = .accepted →
      ∃ i < j, (env.order w.readings w.state.persistentReplies)[i]? = some p ∧ env.push (w.readings + i) p.1 ≠ .full) →
    p ∈ drop ∨ out.idxOf p < out.idxOf c

theorem flushes_write (w : World) : ∃ out drop, Flushes env w (after (write env w)) out drop := by
  have hget : (get : M World) w = .ok w w := rfl
  unfold write
  rw [bind_ok hget, bind_ok hget]
  split_ifs with hempty
  · -- the log is written, then each reply is tried
    obtain ⟨left, out, drop, h, hall, hleft, hout, horder⟩ :=
      flushReplies_spec env (env.order w.readings w.state.persistentReplies)
        { w with state := { w.state with log := w.state.log.writeCommit } }
    have hmem : ∀ {r}, r ∈ env.order w.readings w.state.persistentReplies ↔ r ∈ w.state.persistentReplies :=
      (env.order_perm _ _).mem_iff
    refine ⟨out, drop, ?_⟩
    have hlog : modifyState (fun s => { s with log := s.log.writeCommit }) w =
      .ok () { w with state := { w.state with log := w.state.log.writeCommit } } := rfl
    rw [bind_ok hlog, bind_ok h]
    have hkeeps : ∀ v : World, heard (after ((do
        modifyState fun s => { s with persistentReplies := left }
        flushRequests env w.state.persistentRequests
        modifyState fun s => { s with persistentRequests := [] } : M Unit) v)) = (left, v.delivered, v.dropped) := by
      intro v
      have hrest : Moves (Keeps heard) (do
          flushRequests env w.state.persistentRequests
          modifyState fun s => { s with persistentRequests := [] } : M Unit) :=
        .bind (keeps_flushRequests env _) fun _ => keeps_modifyState (by intro _; rfl)
      exact hrest.after { v with state := { v.state with persistentReplies := left } }
    have hheard := hkeeps { w with
      state := { w.state with log := w.state.log.writeCommit }
      readings := w.readings + (env.order w.readings w.state.persistentReplies).length
      delivered := w.delivered ++ out
      dropped := w.dropped ++ drop }
    have hpersistent := congrArg Prod.fst hheard
    have hdelivered := congrArg (·.2.1) hheard
    have hdropped := congrArg (·.2.2) hheard
    simp only [heard] at hpersistent hdelivered hdropped
    constructor
    · exact hdelivered
    · exact hdropped
    · intro r hr
      rw [hpersistent]
      exact hall r (hmem.2 hr)
    · rw [hpersistent]
      exact fun r hr => hmem.1 (hleft hr)
    · exact fun r hr => hmem.1 (hout hr)
    · exact horder
  · have hnone : w.state.persistentReplies = [] := by
      simp only [Bool.or_eq_true, not_or] at hempty
      simpa using hempty.1
    refine ⟨[], [], ?_⟩
    constructor
    · exact (List.append_nil _).symm
    · exact (List.append_nil _).symm
    · exact fun r hr => .inr (.inr hr)
    · exact List.Subset.refl _
    · exact List.nil_subset _
    · exact nofun

theorem flushes_step (w : World) : ∃ out drop, Flushes env w (w.step env .write) out drop := by
  obtain ⟨out, drop, h⟩ := flushes_write env w
  refine ⟨out, drop, ?_⟩
  unfold World.step
  have hhandle : handle env .write (w.answer .write) = write env w := rfl
  rw [hhandle]
  cases hw : write env w with
  | ok _ w' =>
    rw [hw] at h
    exact h
  | error _ w' =>
    rw [hw] at h
    exact ⟨h.delivered, h.dropped, h.all, h.left, h.put, h.order⟩

/-! ## Runs -/

/-- What every event keeps. -/
structure Ordered (r : Replying) : Prop where
  known : ∀ m ∈ r.made, m ∈ r.world.delivered ∨ m ∈ r.world.dropped ∨ m ∈ r.world.state.persistentReplies
  persistent : r.world.state.persistentReplies ⊆ r.made
  delivered : r.world.delivered ⊆ r.made
  inOrder : InOrder r

theorem Pair.ne {p c : Nat × Reply} (h : Pair p c) : p ≠ c := by
  rintro rfl
  obtain ⟨hp, hc, -⟩ := h
  revert hp hc
  cases p.2 with
  | commit trid correlation stage state => cases stage <;> simp [Reply.isPrepare, Reply.isCommit]
  | rollback => nofun

theorem idxOf_lt_append {p c : Nat × Reply} {l l' : List (Nat × Reply)} (hp : p ∈ l) (h : c ∈ l → l.idxOf p < l.idxOf c) :
    (l ++ l').idxOf p < (l ++ l').idxOf c := by
  rw [List.idxOf_append_of_mem hp]
  by_cases hc : c ∈ l
  · rw [List.idxOf_append_of_mem hc]
    exact h hc
  · rw [List.idxOf_append_of_notMem hc]
    exact Nat.lt_of_lt_of_le (List.idxOf_lt_length_iff.2 hp) (Nat.le_add_right _ _)

/-- What comes before something that is in the list is in the list. -/
theorem mem_of_idxOf_lt {p c : Nat × Reply} {l l' : List (Nat × Reply)} (hc : c ∈ l)
    (h : (l ++ l').idxOf p < (l ++ l').idxOf c) : p ∈ l ∧ l.idxOf p < l.idxOf c := by
  rw [List.idxOf_append_of_mem hc] at h
  have hp : p ∈ l := by
    by_contra hp
    rw [List.idxOf_append_of_notMem hp] at h
    have := List.idxOf_lt_length_iff.2 hc
    omega
  rw [List.idxOf_append_of_mem hp] at h
  exact ⟨hp, h⟩

/-- What was put on a queue before stays in order. -/
theorem InOrder.append {r : Replying} (h : Ordered r) {p c : Nat × Reply} (hpair : Pair p c) {out drop : List (Nat × Reply)}
    (hp : p ∈ r.made) (hlt : r.made.idxOf p < r.made.idxOf c) (hc : c ∈ r.world.delivered) :
    p ∈ r.world.dropped ++ drop ∨ (r.world.delivered ++ out).idxOf p < (r.world.delivered ++ out).idxOf c := by
  rcases h.inOrder p c hpair hp hlt hc with hdropped | hbefore
  · exact .inl (List.mem_append_left _ hdropped)
  · have hpd : p ∈ r.world.delivered :=
      List.idxOf_lt_length_iff.1 (hbefore.trans (List.idxOf_lt_length_iff.2 hc))
    exact .inr (idxOf_lt_append hpd fun _ => hbefore)

theorem Ordered.write {r : Replying} (h : Ordered r) (hkeeps : keepsOrder env r .write) :
    Ordered (r.step env .write) := by
  obtain ⟨out, drop, hf⟩ := flushes_step env r.world
  constructor
  · intro m hm
    show m ∈ (r.world.step env .write).delivered ∨ m ∈ (r.world.step env .write).dropped ∨
      m ∈ (r.world.step env .write).state.persistentReplies
    rw [hf.delivered, hf.dropped]
    rcases h.known m hm with hm | hm | hm
    · exact .inl (List.mem_append_left _ hm)
    · exact .inr (.inl (List.mem_append_left _ hm))
    · rcases hf.all m hm with hm | hm | hm
      · exact .inl (List.mem_append_right _ hm)
      · exact .inr (.inl (List.mem_append_right _ hm))
      · exact .inr (.inr hm)
  · exact fun m hm => h.persistent (hf.left hm)
  · intro m hm
    change m ∈ (r.world.step env .write).delivered at hm
    rw [hf.delivered] at hm
    exact (List.mem_append.1 hm).elim (fun hm => h.delivered hm) fun hm => h.persistent (hf.put hm)
  · intro p c hpair hp hlt hc
    change p ∈ r.made at hp
    change r.made.idxOf p < r.made.idxOf c at hlt
    change c ∈ (r.world.step env .write).delivered at hc
    show p ∈ (r.world.step env .write).dropped ∨
      (r.world.step env .write).delivered.idxOf p < (r.world.step env .write).delivered.idxOf c
    rw [hf.delivered] at hc ⊢
    rw [hf.dropped]
    by_cases hcd : c ∈ r.world.delivered
    · exact InOrder.append h hpair hp hlt hcd
    have hout := (List.mem_append.1 hc).resolve_left hcd
    by_cases hpd : p ∈ r.world.delivered
    · exact .inr (idxOf_lt_append hpd fun hc => absurd hc hcd)
    by_cases hpr : p ∈ r.world.dropped
    · exact .inl (List.mem_append_left _ hpr)
    -- it waits, and is tried before
    have hwaits := ((h.known p hp).resolve_left hpd).resolve_left hpr
    rcases hf.order p c hpair.ne hout (hkeeps p c hpair hwaits hpd hpr hlt) with hdrop | hbefore
    · exact .inl (List.mem_append_right _ hdrop)
    · rw [List.idxOf_append_of_notMem hpd, List.idxOf_append_of_notMem hcd]
      exact .inr (Nat.add_lt_add_left hbefore _)

theorem Ordered.tell {r : Replying} (h : Ordered r) {e : Event} (he : e ≠ .write)
    (hkeeps : ∀ p ∈ r.world.state.persistentReplies, p.2.isPrepare = true → ¬ atOnce env r.world e p.2.trid.xid) :
    Ordered (r.step env e) := by
  obtain ⟨⟨pers, hpers⟩, ⟨out, hout, hnow⟩, ⟨drop, hdrop⟩⟩ := tells_step env he r.world
  have hmade : (r.step env e).made = r.made ++ (out ++ drop ++ pers) := by
    unfold Replying.step madeBy
    cases e <;> first | exact absurd rfl he | simp only [hout, ← hdrop, ← hpers, List.drop_left]
  constructor
  · intro m hm
    show m ∈ (r.world.step env e).delivered ∨ m ∈ (r.world.step env e).dropped ∨
      m ∈ (r.world.step env e).state.persistentReplies
    rw [hmade] at hm
    rw [hout, ← hdrop, ← hpers]
    rcases List.mem_append.1 hm with hm | hm
    · rcases h.known m hm with hm | hm | hm
      · exact .inl (List.mem_append_left _ hm)
      · exact .inr (.inl (List.mem_append_left _ hm))
      · exact .inr (.inr (List.mem_append_left _ hm))
    · rcases List.mem_append.1 hm with hm | hm
      · rcases List.mem_append.1 hm with hm | hm
        · exact .inl (List.mem_append_right _ hm)
        · exact .inr (.inl (List.mem_append_right _ hm))
      · exact .inr (.inr (List.mem_append_right _ hm))
  · intro m hm
    change m ∈ (r.world.step env e).state.persistentReplies at hm
    rw [← hpers] at hm
    rw [hmade]
    rcases List.mem_append.1 hm with hm | hm
    · exact List.mem_append_left _ (h.persistent hm)
    · exact List.mem_append_right _ (List.mem_append_right _ hm)
  · intro m hm
    change m ∈ (r.world.step env e).delivered at hm
    rw [hout] at hm
    rw [hmade]
    rcases List.mem_append.1 hm with hm | hm
    · exact List.mem_append_left _ (h.delivered hm)
    · exact List.mem_append_right _ (List.mem_append_left _ (List.mem_append_left _ hm))
  · intro p c hpair hp hlt hc
    rw [hmade] at hp hlt
    change c ∈ (r.world.step env e).delivered at hc
    show p ∈ (r.world.step env e).dropped ∨
      (r.world.step env e).delivered.idxOf p < (r.world.step env e).delivered.idxOf c
    rw [hout] at hc ⊢
    rw [← hdrop]
    by_cases hcd : c ∈ r.world.delivered
    · obtain ⟨hp, hlt⟩ := mem_of_idxOf_lt (h.delivered hcd) hlt
      exact InOrder.append h hpair hp hlt hcd
    have hcout := (List.mem_append.1 hc).resolve_left hcd
    have hatOnce := hnow c hcout hpair.commit
    by_cases hpm : p ∈ r.made
    · rcases h.known p hpm with hpd | hpr | hpp
      · exact .inr (idxOf_lt_append hpd fun hc => absurd hc hcd)
      · exact .inl (List.mem_append_left _ hpr)
      · exact absurd (hpair.trid ▸ hatOnce) (hkeeps p hpp hpair.prepare)
    -- both have just been made
    have hpd : p ∉ r.world.delivered := fun hpd => hpm (h.delivered hpd)
    have hcm : c ∉ r.made := fun hcm => hpm (mem_of_idxOf_lt hcm hlt).1
    rw [List.idxOf_append_of_notMem hpm, List.idxOf_append_of_notMem hcm, List.append_assoc] at hlt
    obtain ⟨-, hlt⟩ := mem_of_idxOf_lt hcout (Nat.lt_of_add_lt_add_left hlt)
    rw [List.idxOf_append_of_notMem hpd, List.idxOf_append_of_notMem hcd]
    exact .inr (Nat.add_lt_add_left hlt _)

/-- In every run in which a commit reply that is tried finds room only after the prepare replies that were made
before it, the owner gets the prepare reply first. -/
theorem inOrder_of_reachable {r : Replying} (h : ((replying env).restrict (keepsOrder env)).Reachable r) : InOrder r := by
  have hordered : Ordered r := by
    apply h.invariant
    · rintro _ ⟨resources, log, -, rfl⟩
      exact ⟨nofun, List.nil_subset _, List.nil_subset _, nofun⟩
    · rintro r e hr ⟨-, hkeeps⟩
      cases e with
      | write => exact hr.write env hkeeps
      | _ => exact hr.tell env nofun hkeeps
  exact hordered.inOrder

end

/-! ### A queue that is full once -/

instance (r : Replying) (e : Event) (env : Environment) : Decidable ((replying env).admits r e) :=
  inferInstanceAs (Decidable (r.world.admits e))

/-- A manager of two resources that has made no reply. -/
def startReplying : Replying := ⟨World.start twoProxies [], []⟩

theorem startReplying_init (env : Environment) : (replying env).init startReplying :=
  ⟨twoProxies, [], twoProxies_started, rfl⟩

/-- The queue of the owner is full when the prepare reply is tried, and has room for the commit reply. -/
def fullOnce : Environment := someEnvironment fun n _ => if n = 5 then .full else .accepted

/-- The transaction is prepared and committed in one round. -/
def oneRound : List Event := prepared ++ committed ++ [Event.write]

theorem fullOnce_outOfOrder : ∃ r, (replying fullOnce).Reachable r ∧ ¬ InOrder r := by
  refine ⟨oneRound.foldl (replying fullOnce).step startReplying,
    .foldl (.of_init (startReplying_init fullOnce)) (by decide +kernel), fun h => ?_⟩
  have := h (6, .commit someID 7 .prepare 0) (6, .commit someID 7 .commit 0) ⟨rfl, rfl, rfl⟩ (by decide +kernel)
    (by decide +kernel) (by decide +kernel)
  revert this
  decide +kernel

/-- Every queue takes what is sent to it. -/
def neverFull : Environment := someEnvironment fun _ _ => .accepted

theorem keepsOrder_of_nil {env : Environment} {r : Replying} (h : r.world.state.persistentReplies = []) {e : Event}
    (he : e ≠ .write) : keepsOrder env r e := by
  cases e with
  | write => exact absurd rfl he
  | _ =>
    intro p hp
    rw [h] at hp
    cases hp

/-- No commit reply is sent at once when one of several resources has committed. -/
theorem keepsOrder_of_several {env : Environment} {r : Replying} {message : ResourceReply}
    (h : (r.world.state.find message.trid).all (fun t => decide (1 < t.resources.length)) = true) :
    keepsOrder env r (.reply .commit message) := by
  rintro p - - ⟨-, t, hfind, hlength⟩
  rw [hfind, Option.all_some, decide_eq_true_eq] at h
  omega

/-- The replies are tried in the order in which they were made, and each queue takes them. -/
theorem keepsOrder_of_inTurn {env : Environment} {r : Replying}
    (hturn : (env.order r.world.readings r.world.state.persistentReplies).Pairwise fun m m' =>
      r.made.idxOf m ≤ r.made.idxOf m') (hpush : ∀ n queue, env.push n queue ≠ .full) : keepsOrder env r .write := by
  intro p c hpair hp _ _ hlt j hj _
  obtain ⟨i, hi⟩ := List.mem_iff_getElem?.1 ((env.order_perm r.world.readings _).mem_iff.2 hp)
  refine ⟨i, ?_, hi, hpush _ _⟩
  by_contra hle
  obtain ⟨hilt, rfl⟩ := List.getElem?_eq_some_iff.1 hi
  obtain ⟨hjlt, rfl⟩ := List.getElem?_eq_some_iff.1 hj
  rcases Nat.lt_or_eq_of_le (Nat.not_lt.1 hle) with hji | rfl
  · have hback := List.pairwise_iff_getElem.1 hturn j i hjlt hilt hji
    omega
  · exact hpair.ne rfl

/-- Both replies wait at the one flush, and the prepare reply is tried first. -/
theorem oneRound_inOrder :
    InOrder (oneRound.foldl (replying neverFull).step startReplying) ∧
      (oneRound.foldl (replying neverFull).step startReplying).world.delivered =
        [(6, .commit someID 7 .prepare 0), (6, .commit someID 7 .commit 0)] := by
  constructor
  · apply inOrder_of_reachable neverFull
    refine .foldl (M := (replying neverFull).restrict (keepsOrder neverFull)) (.of_init (startReplying_init neverFull)) ?_
    refine ⟨⟨by decide +kernel, keepsOrder_of_nil (by decide +kernel) nofun⟩,
      ⟨by decide +kernel, keepsOrder_of_nil (by decide +kernel) nofun⟩,
      ⟨by decide +kernel, keepsOrder_of_nil (by decide +kernel) nofun⟩,
      ⟨by decide +kernel, keepsOrder_of_nil (by decide +kernel) nofun⟩,
      ⟨by decide +kernel, keepsOrder_of_nil (by decide +kernel) nofun⟩,
      ⟨by decide +kernel, keepsOrder_of_several (by decide +kernel)⟩,
      ⟨by decide +kernel, keepsOrder_of_several (by decide +kernel)⟩,
      ⟨by decide +kernel, keepsOrder_of_inTurn (by decide +kernel) fun _ _ => nofun⟩, trivial⟩
  · decide +kernel

end Casual.Manager
