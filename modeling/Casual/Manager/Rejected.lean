/-
Requests of owners that are answered with an error: what they leave of the transactions, their
resources and the pending requests.
-/
import Casual.Manager.Pending

namespace Casual.Manager

open Casual.Common Casual.Communication Casual.Lib
open Casual.Common.Transaction (ID XID)

/-! ## What an error is to leave as it was -/

/-- A transaction with its resources, in any order. -/
structure Same (t t' : Transaction) : Prop where
  trid : t'.trid = t.trid
  resources : t'.resources.Perm t.resources

/-- The transactions, their resources with stages and results, and the pending requests are as they were. -/
structure Unchanged (s s' : State) : Prop where
  transactions : List.Forall₂ Same s.transactions s'.transactions
  pending : s'.pendingRequests = s.pendingRequests

/-- What an owner asks for. -/
inductive Demand
  | commit | rollback
  deriving DecidableEq, Repr

namespace Demand

/-- The message of an owner. -/
def event (message : OwnerRequest) : Demand → Event
  | commit => .commit message
  | rollback => .rollback message

/-- The handler inside of `user_reply_wrapper`. -/
def handler (env : Environment) : Demand → OwnerRequest → M Unit
  | commit => basicCommit env
  | rollback => basicRollback env

/-- The stage of resources that are asked. -/
def stage (resources : List Resource) : Demand → Stage
  | commit => if resources.length = 1 then .commitRequested else .prepareRequested
  | rollback => .rollbackRequested

end Demand

/-- The resources of the transaction a request is for, with those the request names. -/
def merged (env : Environment) (s : State) (message : OwnerRequest) : List Resource :=
  (involved env s (s.known message.trid) message.resources).resources

/-- Every resource the request would ask was there, as it is when it has been asked. -/
def Asks (env : Environment) (s : State) (message : OwnerRequest) (demand : Demand) : Prop :=
  ∀ r ∈ merged env s message, r.stage = .involved → ∃ t, s.find message.trid = some t ∧
    { r with stage := demand.stage (merged env s message) } ∈ t.resources

/-! ## What every run keeps -/

/-- A transaction is there once, and a resource once in it. -/
structure Clear (w : World) : Prop where
  transactions : (w.state.transactions.map (·.trid.xid)).Nodup
  resources : ∀ t ∈ w.state.transactions, (t.resources.map (·.id)).Nodup

/-- The programs that keep it. -/
def Clears {α : Type} (x : M α) : Prop := Triple Clear x (fun _ => Clear) fun _ => Clear

theorem Clear.congr {w w' : World} (h : Clear w) (ht : w'.state.transactions = w.state.transactions) : Clear w' :=
  ⟨by rw [ht]; exact h.transactions, by rw [ht]; exact h.resources⟩

theorem clears {α : Type} {x : M α} (h : Moves (Keeps fun w : World => w.state.transactions) x) : Clears x := by
  intro w hw
  have hk := h.after w
  cases hx : x w with
  | ok a w' =>
    rw [hx] at hk
    exact hw.congr hk
  | error e w' =>
    rw [hx] at hk
    exact hw.congr hk

theorem clears_setTransaction {t : Transaction} (ht : (t.resources.map (·.id)).Nodup) :
    Clears (modifyState (·.setTransaction t)) := by
  intro w hw
  constructor
  · have : (w.state.setTransaction t).transactions.map (·.trid.xid) = w.state.transactions.map (·.trid.xid) := by
      unfold State.setTransaction
      rw [List.map_map]
      refine List.map_congr_left fun u _ => ?_
      simp only [Function.comp_apply]
      split_ifs with hu
      · exact hu.symm
      · rfl
    exact this ▸ hw.transactions
  · intro u' hu'
    obtain ⟨u, hu, rfl⟩ := List.mem_map.1 hu'
    split_ifs
    · exact ht
    · exact hw.resources u hu

theorem clears_eraseTransaction (trid : ID) : Clears (modifyState (·.eraseTransaction trid)) := by
  intro w hw
  constructor
  · exact hw.transactions.sublist (List.eraseP_sublist.map _)
  · intro t ht
    exact hw.resources t (List.mem_of_mem_eraseP ht)

theorem clears_ensure (trid : ID) : Clears (modifyState (·.ensure trid)) := by
  intro w hw
  change Clear { w with state := w.state.ensure trid }
  unfold State.ensure
  split_ifs with hfind
  · exact hw
  · have hnone : w.state.find trid = none := by simpa using hfind
    constructor
    · simp only [List.map_append, List.map_cons, List.map_nil]
      refine List.nodup_append.2 ⟨hw.transactions, List.nodup_singleton _, ?_⟩
      rintro x hx y hy rfl
      obtain ⟨t, ht, rfl⟩ := List.mem_map.1 hx
      exact List.find?_eq_none.1 hnone t ht (beq_iff_eq.2 (List.mem_singleton.1 hy))
    · intro t ht
      rcases List.mem_append.1 ht with ht | ht
      · exact hw.resources t ht
      · rw [List.mem_singleton.1 ht]
        exact List.nodup_nil

/-! ### Handlers -/

/-- The transactions and the pending requests. -/
def books (w : World) : List Transaction × List PendingRequest := (w.state.transactions, w.state.pendingRequests)

theorem aside_books : Aside books := ⟨fun _ _ _ _ _ => rfl⟩

theorem setResource_ids {t : Transaction} (ht : (t.resources.map (·.id)).Nodup) (r : Resource) :
    ((t.setResource r).resources.map (·.id)).Nodup := by
  have : (t.setResource r).resources.map (·.id) = t.resources.map (·.id) := by
    unfold Transaction.setResource
    rw [List.map_map]
    refine List.map_congr_left fun u _ => ?_
    simp only [Function.comp_apply]
    split_ifs with hu
    · exact hu.symm
    · rfl
  exact this ▸ ht

theorem involved_nodup (env : Environment) (s : State) (t : Transaction) (ids : List Nat) :
    ((involved env s t ids).resources.map (·.id)).Nodup := by
  have h := (involved_joins env s t ids).nodup
  rwa [Multiset.map_coe, Multiset.coe_nodup] at h

/-- The resources of a transaction when some have been asked. -/
def asked (env : Environment) (filter : Resource → Bool) (newStage : Stage) (rs : List Resource) : List Resource :=
  (env.partition filter rs).1.map (fun r => { r with stage := newStage }) ++ (env.partition filter rs).2

theorem asked_ids (env : Environment) (filter : Resource → Bool) (newStage : Stage) (rs : List Resource) :
    ((asked env filter newStage rs).map (·.id)).Perm (rs.map (·.id)) := by
  have hfst := (env.partition_fst filter rs).map (·.id)
  have hsnd := (env.partition_snd filter rs).map (·.id)
  have hasked : (asked env filter newStage rs).map (·.id) =
      (env.partition filter rs).1.map (·.id) ++ (env.partition filter rs).2.map (·.id) := by
    unfold asked
    rw [List.map_append, List.map_map]
    rfl
  rw [hasked]
  refine (hfst.append hsnd).trans ?_
  rw [← List.map_append]
  exact (List.filter_append_perm filter rs).map _

theorem mem_asked {env : Environment} {filter : Resource → Bool} {newStage : Stage} {rs : List Resource} {r : Resource} :
    r ∈ asked env filter newStage rs ↔
      (∃ u ∈ rs, filter u = true ∧ { u with stage := newStage } = r) ∨ r ∈ rs ∧ filter r = false := by
  unfold asked
  rw [List.mem_append, List.mem_map, (env.partition_snd filter rs).mem_iff, List.mem_filter, Bool.not_eq_true']
  simp only [(env.partition_fst filter rs).mem_iff, List.mem_filter, and_assoc]

section

variable (env : Environment)

theorem books_sendReply (reply : Reply) (target : Process) : Moves (Keeps books) (sendReply env reply target) := by
  unfold sendReply
  have hsend : Moves (Keeps books) (persistentSend env (target.queue, reply)) := by
    constructor
    intro w
    unfold persistentSend
    cases env.push w.readings target.queue <;> rfl
  apply Moves.bind hsend
  intro b
  apply Moves.ite
  · exact ⟨fun _ => rfl⟩
  · exact .pure _

theorem books_logPrepare (trid : ID) : Moves (Keeps books) (logPrepare trid) := by
  constructor
  intro w
  unfold logPrepare
  cases w.state.log.prepare trid <;> rfl

theorem clears_books {α : Type} {x : M α} (h : Moves (Keeps books) x) : Clears x :=
  clears (h.mono fun _ _ hk => congrArg Prod.fst hk)

theorem clears_sendRequest (phase : Phase) {t : Transaction} (filter : Resource → Bool) (newStage : Stage) (flags : Nat)
    (ht : (t.resources.map (·.id)).Nodup) : Clears (sendRequest env phase t filter newStage flags) := by
  have hasked := (asked_ids env filter newStage t.resources).nodup_iff.2 ht
  refine Triple.bind (Q := fun _ => Clear)
    (clears_setTransaction (t := { t with resources := asked env filter newStage t.resources }) hasked) fun _ => ?_
  apply clears
  dsimp only
  apply Moves.bind (by constructor; intro _; rfl)
  intro _
  apply Moves.bind (aside_transactions.resourceRequest env _ _)
  intro left
  exact .ite ⟨fun _ => rfl⟩ (.pure _)

theorem clears_involve (trid : ID) (ids : List Nat) :
    Triple Clear (involve env trid ids) (fun t w => Clear w ∧ (t.resources.map (·.id)).Nodup) fun _ => Clear := by
  unfold involve
  refine Triple.bind (Q := fun _ => Clear) (clears_ensure trid) fun _ => ?_
  refine Triple.bind (Q := fun _ => Clear) (fun w hw => hw) fun w => ?_
  have hnodup := involved_nodup env w.state ((w.state.find trid).getD (.new trid)) ids
  refine Triple.bind (Q := fun _ => Clear) (clears_setTransaction hnodup) fun _ => ?_
  exact Triple.pure fun v hv => ⟨hv, hnodup⟩

theorem clears_basicCommit (message : OwnerRequest) : Clears (basicCommit env message) := by
  unfold basicCommit
  refine Triple.bind (clears_involve env _ _) fun t => ?_
  apply Triple.of_forall
  rintro w ⟨hw, ht⟩
  refine Triple.conseq (P := Clear) (Q := fun _ => Clear) (E := fun _ => Clear) ?_ (fun v hv => hv ▸ hw)
    (fun _ _ h => h) fun _ _ h => h
  refine Triple.ite (fun _ => Triple.bind (Q := fun _ => Clear) (Triple.throw fun _ h => h) fun _ => ?_) fun _ => ?_
  -- what is done is the same on both sides of the check of the stage
  all_goals
    split
    · exact Triple.bind (Q := fun _ => Clear) (clears_eraseTransaction _) fun _ => clears_books (books_sendReply env _ _)
    · exact clears_sendRequest env _ _ _ _ ht
    · exact clears_sendRequest env _ _ _ _ ht

theorem clears_basicRollback (message : OwnerRequest) : Clears (basicRollback env message) := by
  unfold basicRollback
  refine Triple.bind (clears_involve env _ _) fun t => ?_
  apply Triple.of_forall
  rintro w ⟨hw, ht⟩
  refine Triple.conseq (P := Clear) (Q := fun _ => Clear) (E := fun _ => Clear) ?_ (fun v hv => hv ▸ hw)
    (fun _ _ h => h) fun _ _ h => h
  refine Triple.ite (fun _ => ?_) fun _ => clears_sendRequest env _ _ _ _ ht
  exact Triple.bind (Q := fun _ => Clear) (clears_eraseTransaction _) fun _ => clears_books (books_sendReply env _ _)

theorem clears_userReplyWrapper {handler : OwnerRequest → M Unit} {error : OwnerRequest → Int → Reply}
    {message : OwnerRequest} (h : Clears (handler message)) : Clears (userReplyWrapper env handler error message) := by
  unfold userReplyWrapper
  refine Triple.tryCatch h fun e => ?_
  cases e with
  | user code => exact clears_books (books_sendReply env _ _)
  | _ => exact clears_books (books_sendReply env _ _)

theorem clears_commit (message : OwnerRequest) : Clears (commit env message) := by
  unfold commit
  exact clears_userReplyWrapper env (clears_basicCommit env message)

theorem clears_rollback (message : OwnerRequest) : Clears (rollback env message) := by
  unfold rollback
  exact clears_userReplyWrapper env (clears_basicRollback env message)

theorem clears_exit (pid : Nat) : Clears (exit env pid) := by
  unfold exit
  refine Triple.bind (Q := fun _ => Clear) (fun w hw => hw) fun w => ?_
  exact Triple.forM fun trid _ => clears_rollback env _

/-- What a reply of a resource makes of its transaction, which is changed first. -/
theorem clears_replyHandler (phase : Phase) (message : ResourceReply) {t : Transaction} (r : Resource)
    (ht : (t.resources.map (·.id)).Nodup) : Clears (replyHandler env phase message t r) := by
  cases phase with
  | prepare =>
    have hvoted := setResource_ids ht
    show Clears (basicPrepare env message t r)
    unfold basicPrepare
    refine Triple.bind (Q := fun _ => Clear) (clears_setTransaction (hvoted _)) fun _ => ?_
    refine Triple.ite (fun _ => ?_) fun _ => Triple.pure fun _ h => h
    split
    · refine clears_books (.bind ⟨fun _ => rfl⟩ fun _ => ?_)
      exact .bind (books_sendReply env _ _) fun _ => .pure _
    · refine Triple.bind (Q := fun _ => Clear) (clears_books (books_logPrepare _)) fun _ => ?_
      refine Triple.bind (Q := fun _ => Clear) (clears_books ⟨fun _ => rfl⟩) fun _ => ?_
      refine Triple.bind (Q := fun _ => Clear) (clears_sendRequest env _ _ _ _ (hvoted _)) fun _ => ?_
      exact Triple.pure fun _ h => h
    · refine Triple.bind (Q := fun _ => Clear) (clears_sendRequest env _ _ _ _ (hvoted _)) fun _ => ?_
      exact Triple.pure fun _ h => h
  | commit =>
    show Clears (basicCommitReply env message t r)
    unfold basicCommitReply
    refine Triple.bind (Q := fun _ => Clear) (clears_setTransaction (setResource_ids ht _)) fun _ => ?_
    refine Triple.ite (fun _ => ?_) fun _ => Triple.pure fun _ h => h
    split
    · refine clears_books (.ite ?_ ?_)
      · exact .bind (books_sendReply env _ _) fun _ => .bind ⟨fun _ => rfl⟩ fun _ => .pure _
      · exact .bind ⟨fun _ => rfl⟩ fun _ => .bind ⟨fun _ => rfl⟩ fun _ => .pure _
    · exact clears_books (.bind ⟨fun _ => rfl⟩ fun _ => .pure _)
  | rollback =>
    show Clears (basicRollbackReply env message t r)
    unfold basicRollbackReply
    refine Triple.bind (Q := fun _ => Clear) (clears_setTransaction (setResource_ids ht _)) fun _ => ?_
    refine Triple.ite (fun _ => ?_) fun _ => Triple.pure fun _ h => h
    refine clears_books (.ite ?_ ?_)
    · exact .bind (books_sendReply env _ _) fun _ => .bind ⟨fun _ => rfl⟩ fun _ => .pure _
    · exact .bind ⟨fun _ => rfl⟩ fun _ => .pure _

theorem clears_wrapper {handler : ResourceReply → Transaction → Resource → M Bool} {message : ResourceReply}
    (h : ∀ (t : Transaction) (r : Resource), (t.resources.map (·.id)).Nodup → Clears (handler message t r)) :
    Clears (wrapper env handler message) := by
  unfold wrapper
  refine Triple.bind (Q := fun _ => Clear) (fun w hw => hw) fun w => ?_
  -- the instance is done or unknown, and what comes after it is the same
  rcases w.state.getInstance message.resource message.process.pid with _ | i
  on_goal 1 => refine Triple.bind (Q := fun _ => Clear) (Triple.throw fun _ h => h) fun _ => ?_
  on_goal 2 => refine Triple.bind (Q := fun _ => Clear) (clears (transactions_done env i)) fun _ => ?_
  all_goals
    refine Triple.bind (Q := fun s w => s = w ∧ Clear w) (fun w hw => ⟨rfl, hw⟩) fun w => ?_
    apply Triple.of_forall
    rintro _ ⟨rfl, hw⟩
    refine Triple.conseq (P := Clear) (Q := fun _ => Clear) (E := fun _ => Clear) ?_ (fun v hv => hv ▸ hw)
      (fun _ _ h => h) fun _ _ h => h
    cases ht : w.state.find message.trid with
    | none => exact Triple.pure fun _ h => h
    | some t =>
      cases hr : t.resources.find? fun r => r.id == message.resource with
      | none =>
        simp only [hr]
        exact Triple.pure fun _ h => h
      | some r =>
        simp only [hr]
        refine Triple.bind (Q := fun _ => Clear) (h t r (hw.resources t (List.mem_of_find?_eq_some ht))) fun b => ?_
        exact Triple.ite (fun _ => clears_eraseTransaction _) fun _ => Triple.pure fun _ h => h

theorem transactions_flushReplies : ∀ l : List (Nat × Reply),
    Moves (Keeps fun w : World => w.state.transactions) (flushReplies env l)
  | [] => .pure _
  | message :: rest => by
    have ih := transactions_flushReplies rest
    have hsend : Moves (Keeps fun w : World => w.state.transactions) (persistentSend env message) := by
      constructor
      intro w
      unfold persistentSend
      cases env.push w.readings message.1 <;> rfl
    unfold flushReplies
    apply Moves.bind hsend
    intro b
    exact .ite ih (.bind ih fun _ => .pure _)

theorem transactions_flushRequests : ∀ rs : List PendingRequest,
    Moves (Keeps fun w : World => w.state.transactions) (flushRequests env rs)
  | [] => .pure _
  | request :: rest => by
    have ih := transactions_flushRequests rest
    unfold flushRequests
    apply Moves.bind (aside_transactions.resourceRequest env _ _)
    intro left
    apply Moves.ite
    · exact .bind (by constructor; intro _; rfl) fun _ => ih
    · exact ih

theorem transactions_write : Moves (Keeps fun w : World => w.state.transactions) (write env) := by
  unfold write
  apply Moves.bind .get
  intro w
  apply Moves.bind .get
  intro w'
  apply Moves.ite
  · apply Moves.bind (by constructor; intro _; rfl)
    intro _
    apply Moves.bind (transactions_flushReplies env _)
    intro left
    apply Moves.bind (by constructor; intro _; rfl)
    intro _
    apply Moves.bind (transactions_flushRequests env _)
    intro _
    exact ⟨fun _ => rfl⟩
  · exact .pure _

theorem transactions_connect (message : ConnectReply) :
    Moves (Keeps fun w : World => w.state.transactions) (connect env message) := by
  have hconnected : Moves (Keeps fun w : World => w.state.transactions) (do
      let s := (← get).state
      if !s.connected && s.resources.all fun p => p.instances.any Instance.running then
        let _ ← push env env.broker
        modifyState fun s => { s with connected := true } : M Unit) := by
    apply Moves.bind .get
    intro w
    apply Moves.ite
    · exact .bind (aside_transactions.push env _) fun _ => ⟨fun _ => rfl⟩
    · exact .pure _
  unfold connect
  apply Moves.bind .get
  intro w
  cases w.state.getInstance message.resource message.process.pid with
  | none => exact hconnected
  | some i =>
    apply Moves.ite
    · apply Moves.bind (by constructor; intro _; rfl)
      intro _
      exact .bind (transactions_done env _) fun _ => hconnected
    · exact .bind ⟨fun _ => rfl⟩ fun _ => hconnected

/-- Every event keeps it. -/
theorem clears_handle (e : Event) : Clears (handle env e) := by
  cases e with
  | involved message => exact Triple.bind (clears_involve env _ _) fun _ => Triple.pure fun _ h => h.1
  | commit message => exact clears_commit env message
  | rollback message => exact clears_rollback env message
  | exit pid => exact clears_exit env pid
  | connect message => exact clears (transactions_connect env message)
  | reply phase message => exact clears_wrapper env fun t r ht => clears_replyHandler env phase message r ht
  | write => exact clears (transactions_write env)

theorem clear_of_reachable {w : World} (h : (manager env).Reachable w) : Clear w := by
  apply h.invariant
  · rintro _ ⟨resources, log, -, rfl⟩
    exact ⟨List.nodup_nil, nofun⟩
  · intro w e hw _
    have hanswer : Clear (w.answer e) := by
      cases e <;> exact hw.congr rfl
    have hafter := Triple.after (clears_handle env e) hanswer
    show Clear (w.step env e)
    unfold World.step
    cases hhandle : handle env e (w.answer e) with
    | ok _ w' =>
      rw [hhandle] at hafter
      exact hafter
    | error _ w' =>
      rw [hhandle] at hafter
      exact hafter.congr rfl

/-! ## What a request leaves that is rejected -/

theorem ne_involved {t : Transaction} (h : t.stage ≠ .involved) : ∀ r ∈ t.resources, r.stage ≠ .involved := by
  intro r hr hinvolved
  have hle : t.record.stage ≤ r.stage := Record.le_stage.1 le_rfl r hr
  rw [Transaction.record_stage, hinvolved] at hle
  exact h (le_antisymm hle (show (Stage.involved).ctorIdx ≤ _ from Nat.zero_le _))

/-- Resources that are all among others, and leave none of them out. -/
theorem perm_of_ids {rs rs' : List Resource} (h : (rs.map (·.id)).Nodup) (h' : (rs'.map (·.id)).Nodup)
    (hsub : ∀ r ∈ rs', r ∈ rs) (hall : ∀ r ∈ rs, r.id ∈ rs'.map (·.id)) : rs'.Perm rs := by
  refine (List.perm_ext_iff_of_nodup (List.Nodup.of_map _ h') (List.Nodup.of_map _ h)).2 fun r => ⟨hsub r, fun hr => ?_⟩
  obtain ⟨u, hu, hid⟩ := List.mem_map.1 (hall r hr)
  exact List.inj_on_of_nodup_map h (hsub u hu) hr hid ▸ hu

/-- The transactions with one of them, or a new one, in place of the one with its id. -/
theorem unchanged_iff {w : World} (hw : Clear w) {s' : State} {trid : ID} {t : Transaction}
    (htrid : t.trid = (w.state.known trid).trid)
    (htransactions : s'.transactions = ((w.state.ensure trid).setTransaction t).transactions)
    (hpending : s'.pendingRequests = w.state.pendingRequests) :
    Unchanged w.state s' ↔ ∃ u, w.state.find trid = some u ∧ t.resources.Perm u.resources := by
  cases hfind : w.state.find trid with
  | none =>
    refine iff_of_false (fun h => ?_) nofun
    have hlength := h.transactions.length_eq
    rw [htransactions] at hlength
    simp [State.setTransaction, State.ensure, hfind] at hlength
  | some u =>
    have hu : u ∈ w.state.transactions := List.mem_of_find?_eq_some hfind
    have hknown : w.state.known trid = u := by
      unfold State.known
      rw [hfind, Option.getD_some]
    rw [hknown] at htrid
    have hensure : w.state.ensure trid = w.state := by
      unfold State.ensure
      rw [hfind]
      rfl
    have hmap : s'.transactions = w.state.transactions.map fun v => if v.trid.xid = t.trid.xid then t else v := by
      rw [htransactions, hensure]
      rfl
    constructor
    · intro h
      refine ⟨u, rfl, ?_⟩
      have hsame := h.transactions
      rw [hmap, List.forall₂_map_right_iff, List.forall₂_same] at hsame
      have := (hsame u hu).resources
      rwa [if_pos (by rw [htrid])] at this
    · rintro ⟨_, ⟨⟩, hperm⟩
      refine ⟨?_, hpending⟩
      rw [hmap, List.forall₂_map_right_iff, List.forall₂_same]
      intro v hv
      split_ifs with hxid
      · obtain rfl := List.inj_on_of_nodup_map hw.transactions hv hu (hxid.trans (by rw [htrid]))
        exact ⟨htrid, hperm⟩
      · exact ⟨rfl, .refl _⟩

theorem setTransaction_twice (s : State) {t t' : Transaction} (h : t'.trid = t.trid) :
    (s.setTransaction t).setTransaction t' = s.setTransaction t' := by
  unfold State.setTransaction
  rw [List.map_map, h]
  congr 1
  refine List.map_congr_left fun u _ => ?_
  simp only [Function.comp_apply]
  split_ifs with hu
  · rfl
  · exact absurd rfl ‹¬ _›
  · rfl

theorem sendReply_ok (reply : Reply) (target : Process) (w : World) : ∃ w', sendReply env reply target w = .ok () w' := by
  unfold sendReply
  obtain ⟨b, w', hsend⟩ : ∃ b w', persistentSend env (target.queue, reply) w = .ok b w' := by
    unfold persistentSend
    cases env.push w.readings target.queue
    · exact ⟨_, _, rfl⟩
    · exact ⟨_, _, rfl⟩
    · exact ⟨_, _, rfl⟩
  rw [bind_ok hsend]
  cases b
  · exact ⟨_, rfl⟩
  · exact ⟨_, rfl⟩

/-- Resources that cannot be asked have been marked as if they had. -/
theorem sendRequest_error {phase : Phase} {t : Transaction} {filter : Resource → Bool} {newStage : Stage} {flags : Nat}
    {w w' : World} {e : Exception} (h : sendRequest env phase t filter newStage flags w = .error e w') :
    books w' = ((w.state.setTransaction { t with resources := asked env filter newStage t.resources }).transactions,
      w.state.pendingRequests) ∧ ∃ r ∈ t.resources, filter r = true := by
  set w₁ : World := { w with
    state := w.state.setTransaction { t with resources := asked env filter newStage t.resources }
    emitted := w.emitted ++ ((env.partition filter t.resources).1.map (·.id)).map fun id => (⟨phase, t.trid, flags⟩, id) }
  have hrest : (do
      let left ← resourceRequest env ⟨phase, t.trid, flags⟩ ((env.partition filter t.resources).1.map (·.id))
      if !left.isEmpty then
        modifyState fun s => { s with pendingRequests := s.pendingRequests ++ [⟨⟨phase, t.trid, flags⟩, left⟩] } : M Unit) w₁ =
        .error e w' := h
  rcases of_bind_error hrest with hrest | ⟨left, w₂, -, hrest⟩
  · constructor
    · have hkeeps := (aside_books.resourceRequest env ⟨phase, t.trid, flags⟩
        ((env.partition filter t.resources).1.map (·.id))).after w₁
      rw [hrest] at hkeeps
      exact hkeeps
    · by_contra hnone
      have hempty : (env.partition filter t.resources).1 = [] := by
        refine List.eq_nil_iff_forall_not_mem.2 fun r hr => hnone ?_
        have hr := List.mem_filter.1 ((env.partition_fst filter t.resources).mem_iff.1 hr)
        exact ⟨r, hr⟩
      rw [hempty] at hrest
      cases hrest
  · split_ifs at hrest
    · cases hrest
    · cases hrest

/-- A request is rejected before a resource is asked, or when one of those that are asked is gone. -/
inductive Rejects (demand : Demand) (message : OwnerRequest) (w w' : World) (t : Transaction) : Prop
  | protocol (stage : t.stage ≠ .involved ∧ t.stage ≠ .notInvolved)
      (eq : books w' = (((w.state.ensure message.trid).setTransaction t).transactions, w.state.pendingRequests))
  | gone (involved : ∃ r ∈ t.resources, r.stage = .involved)
      (eq : books w' = (((w.state.ensure message.trid).setTransaction { t with
        correlation := message.correlation
        resources := asked env (fun r => decide (r.stage = .involved)) (demand.stage t.resources) t.resources }).transactions,
        w.state.pendingRequests))

theorem rejects {demand : Demand} {message : OwnerRequest} {w w' : World} {e : Exception}
    (h : demand.handler env message w = .error e w') :
    Rejects env demand message w w' (involved env w.state (w.state.known message.trid) message.resources) := by
  set t := involved env w.state (w.state.known message.trid) message.resources
  set w₁ : World := { w with state := (w.state.ensure message.trid).setTransaction t }
  have hinvolve : involve env message.trid message.resources w = .ok t w₁ := involve_eq env _ _ w
  have hpending : w₁.state.pendingRequests = w.state.pendingRequests := by
    show (w.state.ensure message.trid).pendingRequests = _
    unfold State.ensure; split_ifs <;> rfl
  have hsend : ∀ {phase : Phase} {flags : Nat}, sendRequest env phase { t with correlation := message.correlation }
      (fun r => decide (r.stage = .involved)) (demand.stage t.resources) flags w₁ = .error e w' →
      Rejects env demand message w w' t := fun hsend => by
    obtain ⟨hbooks, r, hr, hinvolved⟩ := sendRequest_error env hsend
    refine .gone ⟨r, hr, of_decide_eq_true hinvolved⟩ (hbooks.trans ?_)
    exact congrArg₂ Prod.mk (congrArg State.transactions (setTransaction_twice _ rfl)) hpending
  have hanswer : ∀ (reply : Reply) (target : Process), (do
      modifyState (·.eraseTransaction message.trid)
      sendReply env reply target : M Unit) w₁ ≠ .error e w' := by
    intro reply target herror
    obtain ⟨w₂, hok⟩ := sendReply_ok env reply target { w₁ with state := w₁.state.eraseTransaction message.trid }
    cases hok.symm.trans herror
  cases demand with
  | commit =>
    have h : basicCommit env message w = .error e w' := h
    unfold basicCommit at h
    rw [bind_ok hinvolve] at h
    by_cases hstage : t.stage ≠ .involved ∧ t.stage ≠ .notInvolved
    · rw [if_pos hstage] at h
      have hthrow : (.error (.user Result.XAER_PROTO.code) w₁ : EStateM.Result Exception World Unit) = .error e w' := h
      obtain ⟨-, hw'⟩ := EStateM.Result.error.inj hthrow
      exact .protocol hstage (hw' ▸ congrArg (Prod.mk _) hpending)
    · rw [if_neg hstage] at h
      rcases hlength : t.resources.length with _ | _ | n
      · rw [hlength] at h
        exact absurd h (hanswer _ _)
      · rw [hlength] at h
        apply hsend
        rw [Demand.stage, if_pos hlength]
        exact h
      · rw [hlength] at h
        apply hsend
        rw [Demand.stage, if_neg (by omega)]
        exact h
  | rollback =>
    have h : basicRollback env message w = .error e w' := h
    unfold basicRollback at h
    rw [bind_ok hinvolve] at h
    split_ifs at h
    · exact absurd h (hanswer _ _)
    · exact hsend h

/-- The reply that tells of the error changes nothing of what it is to leave. -/
theorem books_step {demand : Demand} {message : OwnerRequest} {w w' : World} {e : Exception}
    (h : demand.handler env message w = .error e w') : books ((manager env).step w (demand.event message)) = books w' := by
  have hwrap : ∀ (handler : OwnerRequest → M Unit) (error : OwnerRequest → Int → Reply), handler message w = .error e w' →
      ∃ w'', userReplyWrapper env handler error message w = .ok () w'' ∧ books w'' = books w' := by
    intro handler error herror
    unfold userReplyWrapper
    rw [tryCatch_error herror]
    have hreply : ∀ code, ∃ w'', sendReply env (error message code) message.process w' = .ok () w'' ∧
        books w'' = books w' := by
      intro code
      obtain ⟨w'', hok⟩ := sendReply_ok env (error message code) message.process w'
      have hkeeps := (books_sendReply env (error message code) message.process).after w'
      rw [hok] at hkeeps
      exact ⟨w'', hok, hkeeps⟩
    cases e with
    | user code => exact hreply code
    | _ => exact hreply _
  show books (w.step env (demand.event message)) = _
  unfold World.step
  cases demand with
  | commit =>
    obtain ⟨w'', hok, hbooks⟩ := hwrap (basicCommit env) (fun message code => .commit message.trid message.correlation .error code) h
    have hhandle : handle env (Demand.commit.event message) (w.answer (Demand.commit.event message)) = .ok () w'' := hok
    rw [hhandle]
    exact hbooks
  | rollback =>
    obtain ⟨w'', hok, hbooks⟩ := hwrap (basicRollback env) (fun message code => .rollback message.trid message.correlation .error code) h
    have hhandle : handle env (Demand.rollback.event message) (w.answer (Demand.rollback.event message)) = .ok () w'' := hok
    rw [hhandle]
    exact hbooks

theorem known_of_find {s : State} {trid : ID} {u : Transaction} (h : s.find trid = some u) : s.known trid = u := by
  unfold State.known
  rw [h, Option.getD_some]

theorem known_of_none {s : State} {trid : ID} (h : s.find trid = none) : (s.known trid).resources = [] := by
  unfold State.known
  rw [h]
  rfl

theorem known_nodup {w : World} (h : Clear w) (trid : ID) : ((w.state.known trid).resources.map (·.id)).Nodup := by
  cases hfind : w.state.find trid with
  | none =>
    rw [known_of_none hfind]
    exact List.nodup_nil
  | some u =>
    rw [known_of_find hfind]
    exact h.resources u (List.mem_of_find?_eq_some hfind)

/-- A resource that a request does not involve was there. -/
theorem mem_known {w : World} {message : OwnerRequest} {r : Resource} (h : r ∈ merged env w.state message)
    (hstage : r.stage ≠ .involved) : r ∈ (w.state.known message.trid).resources := by
  refine ((involved_joins env _ _ _).origin r h).resolve_right fun hnew => hstage ?_
  rw [hnew]
  rfl

/-- Resources with the ids of those that are merged, all of which were there, are those that were there. -/
theorem perm_known {w : World} (h : Clear w) {message : OwnerRequest} {rs : List Resource}
    (hids : (rs.map (·.id)).Perm ((merged env w.state message).map (·.id)))
    (hsub : ∀ r ∈ rs, r ∈ (w.state.known message.trid).resources) :
    rs.Perm (w.state.known message.trid).resources := by
  have hnodup := involved_nodup env w.state (w.state.known message.trid) message.resources
  refine perm_of_ids (known_nodup h _) (hids.nodup_iff.2 hnodup) hsub fun r hr => ?_
  have hkept := (involved_joins env w.state (w.state.known message.trid) message.resources).kept r hr
  rw [Multiset.map_coe, Multiset.mem_coe] at hkept
  exact hids.mem_iff.2 hkept

/-- A request that is rejected changes nothing exactly when it would ask nothing that has not been asked. -/
theorem rejected_iff {w w' : World} (h : (manager env).Reachable w) {demand : Demand} {message : OwnerRequest}
    {e : Exception} (rejected : demand.handler env message w = .error e w') :
    Unchanged w.state ((manager env).step w (demand.event message)).state ↔ Asks env w.state message demand := by
  have hclear := clear_of_reachable env h
  have hbooks := books_step env rejected
  rcases rejects env rejected with ⟨hstage, heq⟩ | ⟨⟨r, hr, hinvolved⟩, heq⟩
  · -- nothing is involved, so that no resource is new
    have hnone : ∀ r ∈ merged env w.state message, r.stage ≠ .involved := ne_involved hstage.1
    refine iff_of_true ?_ fun r hr hinvolved => absurd hinvolved (hnone r hr)
    refine (unchanged_iff hclear (t := involved env w.state (w.state.known message.trid) message.resources) rfl
      ((congrArg Prod.fst hbooks).trans (congrArg Prod.fst heq))
      ((congrArg Prod.snd hbooks).trans (congrArg Prod.snd heq))).2 ?_
    have hsub : ∀ r ∈ merged env w.state message, r ∈ (w.state.known message.trid).resources := fun r hr =>
      mem_known env hr (hnone r hr)
    cases hfind : w.state.find message.trid with
    | none =>
      have hempty : merged env w.state message = [] := List.eq_nil_iff_forall_not_mem.2 fun r hr => by
        have := hsub r hr
        rw [known_of_none hfind] at this
        cases this
      refine absurd ?_ hstage.2
      rw [Transaction.stage_eq, show (involved env w.state (w.state.known message.trid) message.resources).resources = [] from hempty]
      rfl
    | some u =>
      refine ⟨u, rfl, ?_⟩
      rw [← known_of_find hfind]
      exact perm_known env hclear (.refl _) hsub
  · rw [unchanged_iff hclear (t := { involved env w.state (w.state.known message.trid) message.resources with
        correlation := message.correlation
        resources := asked env (fun r => decide (r.stage = .involved)) (demand.stage (merged env w.state message))
          (merged env w.state message) }) rfl ((congrArg Prod.fst hbooks).trans (congrArg Prod.fst heq))
      ((congrArg Prod.snd hbooks).trans (congrArg Prod.snd heq))]
    constructor
    · rintro ⟨u, hu, hperm⟩ r hr hinvolved
      exact ⟨u, hu, hperm.mem_iff.1 (mem_asked.2 (.inl ⟨r, hr, decide_eq_true hinvolved, rfl⟩))⟩
    · intro hasks
      obtain ⟨u, hu, -⟩ := hasks r hr hinvolved
      refine ⟨u, hu, ?_⟩
      rw [← known_of_find hu]
      refine perm_known env hclear (asked_ids env _ _ _) fun r hr => ?_
      rcases mem_asked.1 hr with ⟨v, hv, hinvolved, rfl⟩ | ⟨hr, hinvolved⟩
      · obtain ⟨u', hu', hmem⟩ := hasks v hv (of_decide_eq_true hinvolved)
        rw [known_of_find hu']
        exact hmem
      · exact mem_known env hr (of_decide_eq_false hinvolved)

end

/-! ### A queue that is gone -/

/-- The queue of the second instance is gone when it is asked to prepare. -/
def instanceGone : Environment := someEnvironment fun n _ => if n = 2 then .gone else .accepted

/-- The commit is answered with an error, and the transaction is there with resources that are to prepare. -/
theorem gone_changes : ∃ w e w', (manager instanceGone).Reachable w ∧
    Demand.commit.handler instanceGone ⟨7, someOwner, someID, [1, 2]⟩ w = .error e w' ∧
    ¬ Unchanged w.state ((manager instanceGone).step w (.commit ⟨7, someOwner, someID, [1, 2]⟩)).state := by
  obtain ⟨e, w', herror⟩ := exists_of_throws (r := Demand.commit.handler instanceGone ⟨7, someOwner, someID, [1, 2]⟩
    ((prepared.take 2).foldl (manager instanceGone).step (World.start twoProxies []))) (by decide +kernel)
  refine ⟨_, e, w', .foldl (.of_init (twoProxies_init instanceGone)) (by decide +kernel), herror, fun h => ?_⟩
  have hlength := h.transactions.length_eq
  revert hlength
  decide +kernel

/-- A transaction that is being prepared, when its owner asks for a commit again. -/
theorem again_unchanged : Unchanged ((prepared.take 3).foldl (manager neverFull).step (World.start twoProxies [])).state
    ((manager neverFull).step ((prepared.take 3).foldl (manager neverFull).step (World.start twoProxies []))
      (.commit ⟨8, someOwner, someID, [1, 2]⟩)).state := by
  obtain ⟨e, w', herror⟩ := exists_of_throws (r := Demand.commit.handler neverFull ⟨8, someOwner, someID, [1, 2]⟩
    ((prepared.take 3).foldl (manager neverFull).step (World.start twoProxies []))) (by decide +kernel)
  have hnone : ∀ r ∈ merged neverFull ((prepared.take 3).foldl (manager neverFull).step (World.start twoProxies [])).state
      ⟨8, someOwner, someID, [1, 2]⟩, r.stage ≠ .involved := by decide +kernel
  refine (@rejected_iff neverFull _ _ (.foldl (.of_init (twoProxies_init neverFull)) (by decide +kernel)) .commit
    ⟨8, someOwner, someID, [1, 2]⟩ e herror).2 fun r hr hinvolved => ?_
  exact absurd hinvolved (hnone r hr)

end Casual.Manager
