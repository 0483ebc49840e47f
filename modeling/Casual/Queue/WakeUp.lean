/-
Whether a dequeue request waits while there is a message for it: what each handler makes of that, and
when none does.
-/
import Casual.Lib.Run
import Casual.Queue.Handlers
import Casual.Queue.Statistics

namespace Casual.Queue

open Casual.Common Casual.Communication Casual.Lib

namespace Database

/-- No committed message that has not been dequeued is what the request asks for. -/
def Unmatched (db : Database) (r : Message.DequeueRequest) : Prop :=
  ∀ m ∈ db.messages, m.queue = r.queue → m.state = .enqueued → ¬ Matches r.selector m

/-- A request that finds nothing is unmatched, as far as messages are available. -/
theorem unmatched_of_select {db : Database} {r : Message.DequeueRequest} {now : Int}
    (havailable : ∀ m ∈ db.messages, m.avalible < now) (h : select r now db = none) : Unmatched db r :=
  fun m hm hqueue hstate => select_none h m hm hqueue hstate (havailable m hm)

/-- Every message was there before, and those that can be dequeued were as they are. -/
def Fewer (db db' : Database) : Prop :=
  ∀ m' ∈ db'.messages, ∃ m ∈ db.messages, m'.avalible = m.avalible ∧ (m'.state = .enqueued → m' = m)

theorem Fewer.refl (db : Database) : Fewer db db := fun m hm => ⟨m, hm, rfl, fun _ => rfl⟩

theorem Fewer.trans {db db' db'' : Database} (h : Fewer db db') (h' : Fewer db' db'') : Fewer db db'' := by
  intro m'' hm''
  obtain ⟨m', hm', ha', he'⟩ := h' m'' hm''
  obtain ⟨m, hm, ha, he⟩ := h m' hm'
  refine ⟨m, hm, ha'.trans ha, fun hs => ?_⟩
  have heq := he' hs
  rw [heq, he (heq ▸ hs)]

theorem Unmatched.fewer {db db' : Database} {r : Message.DequeueRequest} (h : Unmatched db r) (hf : Fewer db db') :
    Unmatched db' r := by
  intro m' hm' hqueue hstate
  obtain ⟨m, hm, -, he⟩ := hf m' hm'
  have heq := he hstate
  rw [heq] at hqueue hstate ⊢
  exact h m hm hqueue hstate

theorem dequeue_fewer {db db' : Database} {r : Message.DequeueRequest} {now : Int} {reply : Message.DequeueReply}
    (hc : Sane db) (h : dequeue r now db = .ok reply db') : Fewer db db' := by
  rcases dequeue_spec hc r now with ⟨-, he⟩ | ⟨row, db₁, -, he, -, -, hm⟩
  · rw [he] at h
    cases h
    exact Fewer.refl db
  · rw [he] at h
    cases h
    intro m' hm'
    rw [hm] at hm'
    obtain ⟨m, hmem, htaken⟩ := List.mem_filterMap.1 hm'
    refine ⟨m, hmem, ?_⟩
    unfold taken at htaken
    split_ifs at htaken
    · cases htrid : r.trid with
      | none => rw [htrid] at htaken; cases htaken
      | some trid =>
        rw [htrid] at htaken
        cases htaken
        exact ⟨rfl, nofun⟩
    · cases htaken
      exact ⟨rfl, fun _ => rfl⟩

end Database

namespace Group

open Database

variable {env : Environment}

/-! ## Those who wait -/

/-- What every event keeps: whoever waits has nothing to wait for, at any time the clock can show. -/
structure Awake (env : Environment) (s : Group) : Prop where
  sane : Sane s.queuebase
  available : ∀ m ∈ s.queuebase.messages, ∀ n, m.avalible < env.clock n
  unmatched : ∀ r ∈ s.pending.requests, Unmatched s.queuebase r

theorem available_fewer {db db' : Database} (h : ∀ m ∈ db.messages, ∀ n, m.avalible < env.clock n) (hf : Fewer db db') :
    ∀ m ∈ db'.messages, ∀ n, m.avalible < env.clock n := by
  intro m' hm' n
  obtain ⟨m, hm, ha, -⟩ := hf m' hm'
  rw [ha]
  exact h m hm n

/-- A dequeue takes messages, and stores the request only when it finds nothing. -/
theorem dequeueRequest_awake {r : Message.DequeueRequest} {s : Group} (hc : Sane s.queuebase)
    (havailable : ∀ m ∈ s.queuebase.messages, ∀ n, m.avalible < env.clock n) :
    (∃ t, dequeueRequest env r s = .ok false t ∧ t.queuebase = s.queuebase ∧ t.pending.requests = s.pending.requests ++ [r] ∧
        Unmatched s.queuebase r) ∨
      ∃ t, (dequeueRequest env r s = .ok true t ∨ dequeueRequest env r s = .error .unavailable t) ∧ Sane t.queuebase ∧
        Fewer s.queuebase t.queuebase ∧ t.pending = s.pending := by
  rcases @dequeueRequest_cases env r _ hc with
    ⟨hblock, hselect, he⟩ | ⟨message, db, hdequeue, hsane, ⟨-, he⟩ | he⟩
  · refine .inl ⟨_, he, rfl, ?_, unmatched_of_select (fun m hm => havailable m hm _) hselect⟩
    rw [Pending.dequeue_requests, if_pos hblock]
  · exact .inr ⟨_, .inr he, hsane, dequeue_fewer hc hdequeue, rfl⟩
  · refine .inr ⟨answered env r message db s, ?_, hsane, dequeue_fewer hc hdequeue, rfl⟩
    split_ifs at he
    · exact .inr he
    · exact .inl he

/-- The loop of a commit leaves nobody waiting who was not and who could be answered. -/
theorem wake_awake : ∀ (rs : List Message.DequeueRequest) (enqueued : Nat → Nat) (s : Group), Sane s.queuebase →
    (∀ m ∈ s.queuebase.messages, ∀ n, m.avalible < env.clock n) →
    ∃ t, wake env rs enqueued s = .ok () t ∧ Sane t.queuebase ∧ Fewer s.queuebase t.queuebase ∧
      ∀ r ∈ t.pending.requests, r ∈ s.pending.requests ∨ Unmatched t.queuebase r
  | [], _, s, hs, _ => ⟨s, rfl, hs, Fewer.refl _, fun _ hr => .inl hr⟩
  | r :: rest, enqueued, s, hs, havailable => by
    rcases Nat.eq_zero_or_pos (enqueued r.queue) with hspent | hleft
    · rw [wake_spent hspent]
      exact wake_awake rest enqueued s hs havailable
    rcases dequeueRequest_awake (r := r) hs havailable with ⟨u, he, hbase, hpending, hunmatched⟩ | ⟨u, he, hsane, hfewer, hpending⟩
    · rw [wake_stored hleft he]
      obtain ⟨t, ht, hst, hft, hrequests⟩ := wake_awake rest enqueued { u with pending := u.pending.dequeue r }
        (hbase ▸ hs) (hbase ▸ havailable)
      rw [show ({ u with pending := u.pending.dequeue r } : Group).queuebase = s.queuebase from hbase] at hft
      refine ⟨t, ht, hst, hft, fun r' hr' => ?_⟩
      rcases hrequests r' hr' with hr' | hr'
      · rw [show ({ u with pending := u.pending.dequeue r } : Group).pending.requests = _ from Pending.dequeue_requests _ _,
          hpending] at hr'
        simp only [List.mem_append, List.mem_singleton] at hr'
        rcases hr' with (hr' | rfl) | hr'
        · exact .inl hr'
        · exact .inr (hunmatched.fewer hft)
        · split_ifs at hr'
          · rw [List.mem_singleton] at hr'
            exact .inr (hr' ▸ hunmatched.fewer hft)
          · cases hr'
      · exact .inr hr'
    · have hwake : ∃ enqueued', wake env (r :: rest) enqueued s = wake env rest enqueued' u := by
        rcases he with he | he
        · exact ⟨_, wake_answered hleft he⟩
        · exact ⟨_, wake_unavailable hleft he⟩
      obtain ⟨enqueued', hwake⟩ := hwake
      obtain ⟨t, ht, hst, hft, hrequests⟩ := wake_awake rest enqueued' u hsane (available_fewer havailable hfewer)
      exact ⟨t, hwake.trans ht, hst, hfewer.trans hft, fun r' hr' => hpending ▸ hrequests r' hr'⟩

/-- Those a commit does not wake must have nothing to wait for. -/
theorem replies_awake {trid : Option Transaction.XID} {s : Group} (hs : Sane s.queuebase)
    (havailable : ∀ m ∈ s.queuebase.messages, ∀ n, m.avalible < env.clock n)
    (hothers : ∀ r ∈ s.pending.requests, s.pending.transactions trid r.queue = 0 → Unmatched s.queuebase r) :
    ∃ t, replies env trid s = .ok () t ∧ Awake env t := by
  obtain ⟨t, ht, hst, hft, hrequests⟩ := @wake_awake env (s.pending.commit trid).1.requests
    (s.pending.commit trid).1.enqueued { s with pending := (s.pending.commit trid).2 } hs havailable
  refine ⟨t, ht, hst, available_fewer havailable hft, fun r hr => ?_⟩
  rcases hrequests r hr with hr | hr
  · obtain ⟨hr, hcount⟩ := Pending.mem_commit_snd.1 hr
    exact (hothers r hr hcount).fewer hft
  · exact hr

/-! ## Events -/

/-- Messages come without a future availability time. -/
def comesNow (env : Environment) : Event → Prop
  | .enqueue message => ∀ n, message.message.avalible < env.clock n
  | _ => True

/-- The runs of a queue group whose messages have no future availability time. -/
def timely (env : Environment) : Machine Group Event where
  init s := ∃ db, Casual.Queue.queuebase.Reachable db ∧ (∀ m ∈ db.messages, ∀ n, m.avalible < env.clock n) ∧ s = start db
  admits s e := s.running = true ∧ comesNow env e
  step := step env

/-- A commit makes no message available that somebody waits for whose queue was not recorded when the
transaction enqueued it, and a rollback none that anybody waits for. -/
def wakesAll (s : Group) : Event → Prop
  | .commit message =>
    Database.commit message.trid s.queuebase = .error .query s.queuebase ∨
      ∀ r ∈ s.pending.requests, s.pending.transactions (some message.trid.xid) r.queue = 0 →
        ∀ m ∈ s.queuebase.messages, m.gtrid = some message.trid.xid.gtrid → m.state = .added → m.queue = r.queue →
          ¬ Matches r.selector m
  | .rollback message =>
    ∀ r ∈ s.pending.requests, ∀ m ∈ s.queuebase.messages, m.gtrid = some message.trid.xid.gtrid → m.state = .removed →
      (moved s.queuebase.queues { m with state := .enqueued, redelivered := m.redelivered + 1 }).queue = r.queue →
        ¬ Matches r.selector (moved s.queuebase.queues { m with state := .enqueued, redelivered := m.redelivered + 1 })
  | _ => True

theorem Awake.step_of {s t : Group} {e : Event} (ht : after (handle env e s) = t) (h : Awake env t) :
    Awake env (s.step env e) := by
  obtain ⟨hbase, hpending, -⟩ := @step_fields env s e
  rw [ht] at hbase hpending
  exact ⟨hbase ▸ h.sane, hbase ▸ h.available, hbase ▸ hpending ▸ h.unmatched⟩

theorem Awake.quiet {s t : Group} (h : Awake env s) (hq : Quiet s t) : Awake env t :=
  ⟨hq.queuebase ▸ h.sane, hq.queuebase ▸ h.available, hq.queuebase ▸ hq.pending ▸ h.unmatched⟩

theorem Awake.fewer {s t : Group} (h : Awake env s) (hs : Sane t.queuebase) (hf : Fewer s.queuebase t.queuebase)
    (hr : t.pending.requests ⊆ s.pending.requests) : Awake env t :=
  ⟨hs, available_fewer h.available hf, fun r hmem => (h.unmatched r (hr hmem)).fewer hf⟩

/-- A message that is enqueued is matched only by those who wait for its queue. -/
theorem unmatched_enqueued {db db' : Database} {m : MessageRow} {r : Message.DequeueRequest} (h : Unmatched db r)
    (hm : db'.messages = db.messages ++ [m]) (hr : m.state = .enqueued → m.queue ≠ r.queue) : Unmatched db' r := by
  intro m' hm' hqueue hstate
  rw [hm, List.mem_append, List.mem_singleton] at hm'
  rcases hm' with hm' | rfl
  · exact h m' hm' hqueue hstate
  · exact absurd hqueue (hr hstate)

theorem available_enqueued {db db' : Database} {m : MessageRow} (h : ∀ m ∈ db.messages, ∀ n, m.avalible < env.clock n)
    (hm : db'.messages = db.messages ++ [m]) (hnew : ∀ n, m.avalible < env.clock n) :
    ∀ m ∈ db'.messages, ∀ n, m.avalible < env.clock n := by
  intro m' hm'
  rw [hm, List.mem_append, List.mem_singleton] at hm'
  rcases hm' with hm' | rfl
  · exact h m' hm'
  · exact hnew

theorem available_filterMap {db db' : Database} {f : MessageRow → Option MessageRow}
    (h : ∀ m ∈ db.messages, ∀ n, m.avalible < env.clock n) (hm : db'.messages = db.messages.filterMap f)
    (hf : ∀ m m', f m = some m' → m'.avalible = m.avalible) : ∀ m ∈ db'.messages, ∀ n, m.avalible < env.clock n := by
  intro m' hm' n
  rw [hm] at hm'
  obtain ⟨m, hmem, he⟩ := List.mem_filterMap.1 hm'
  rw [hf m m' he]
  exact h m hmem n

theorem moved_avalible (queues : List QueueRow) (m : MessageRow) :
    (moved queues m).avalible = m.avalible := by
  unfold moved; split_ifs <;> rfl

/-- An event keeps what every event keeps when it wakes all it makes messages available for. -/
theorem Awake.step {s : Group} (h : Awake env s) {e : Event} (hnow : comesNow env e) (hwakes : wakesAll s e) :
    Awake env (s.step env e) := by
  cases e with
  | dead pid =>
    exact Awake.step_of (t := { s with pending := s.pending.erase pid }) rfl
      (h.fewer h.sane (Fewer.refl _) fun r hr => (List.mem_filter.1 hr).1)
  | enqueue message =>
    rcases @enqueueRequest_cases env _ h.sane message with ⟨-, he⟩ | ⟨reply, db, -, hsane, hm, hnone, hsome⟩
    · exact Awake.step_of (congrArg after he) ⟨h.sane, h.available, h.unmatched⟩
    · have havailable := available_enqueued h.available hm hnow
      cases htrid : message.trid with
      | none =>
        obtain ⟨t, ht, hawake⟩ := @replies_awake env none { s with
              queuebase := db
              readings := s.readings + 1
              pending := s.pending.enqueue none message.queue
              persistent := s.persistent ++ [(message.process.queue, .enqueue message.correlation reply)] }
          hsane havailable fun r hr hcount => by
            have hother : message.queue ≠ r.queue := fun hq => Pending.enqueue_counts hr hq hcount
            refine unmatched_enqueued (h.unmatched r (by simpa using hr)) hm fun _ => hother
        exact Awake.step_of (congrArg after (hnone htrid t ht)) hawake
      | some trid =>
        refine Awake.step_of rfl (Awake.quiet ⟨hsane, havailable, fun r hr => ?_⟩ (hsome trid htrid))
        refine unmatched_enqueued (h.unmatched r (by simpa using hr)) hm fun hstate => ?_
        simp [enqueued, htrid] at hstate
  | dequeue r =>
    rcases dequeueRequest_awake (r := r) h.sane h.available with ⟨t, he, hbase, hp, hunmatched⟩ | ⟨t, he, hsane, hf, hp⟩
    · refine Awake.step_of (congrArg after (handle_dequeue he)) ⟨hbase ▸ h.sane, hbase ▸ h.available, fun r' hr' => ?_⟩
      rw [after_ok, hp, List.mem_append, List.mem_singleton] at hr'
      rw [after_ok, hbase]
      rcases hr' with hr' | rfl
      · exact h.unmatched r' hr'
      · exact hunmatched
    · have hafter : after (handle env (.dequeue r) s) = t := by
        rcases he with he | he
        · exact congrArg after (handle_dequeue he)
        · exact congrArg after (handle_dequeue_error he)
      exact Awake.step_of hafter (h.fewer hsane hf (hp ▸ List.Subset.refl _))
  | forget message =>
    have hforget : (s.pending.forget message).2.requests ⊆ s.pending.requests := by
      unfold Pending.forget
      split_ifs
      · exact List.eraseP_subset
      · exact List.Subset.refl _
    exact Awake.step_of rfl ((h.fewer (t := { s with pending := (s.pending.forget message).2 }) h.sane (Fewer.refl _)
      hforget).quiet (forgetRequest_quiet message s))
  | commit message =>
    rcases @commitRequest_cases env _ h.sane message with ⟨-, he⟩ | ⟨db, hdb, hsane, hm, hreplies⟩
    · exact Awake.step_of (congrArg after he) ⟨h.sane, h.available, h.unmatched⟩
    · have havailable : ∀ m ∈ db.messages, ∀ n, m.avalible < env.clock n :=
        available_filterMap h.available hm fun m m' he => by
          unfold committed at he
          split_ifs at he <;> cases he <;> rfl
      obtain ⟨t, ht, hawake⟩ := @replies_awake env (some message.trid.xid) { s with queuebase := db }
        hsane havailable fun r hr hcount => by
          intro m' hm' hqueue hstate
          change m' ∈ db.messages at hm'
          rw [hm] at hm'
          obtain ⟨m, hmem, he⟩ := List.mem_filterMap.1 hm'
          unfold committed at he
          split_ifs at he with hadded hremoved
          · -- a message of the transaction has become available
            cases he
            rcases hwakes with hfails | hwakes
            · rw [hdb] at hfails; cases hfails
            · exact hwakes r hr hcount m hmem hadded.1 hadded.2 hqueue
          · cases he
            exact h.unmatched r hr _ hmem hqueue hstate
      exact Awake.step_of (congrArg after (hreplies t ht)) ⟨hawake.sane, hawake.available, hawake.unmatched⟩
  | rollback message =>
    obtain ⟨db, he, hsane, -, hm⟩ := rollback_spec h.sane message.trid
    refine Awake.step_of (congrArg after (rollbackRequest_eq he)) ⟨hsane, ?_, ?_⟩
    · refine available_filterMap h.available hm fun m m' he => ?_
      unfold rolledBack at he
      split_ifs at he <;> cases he
      · exact moved_avalible _ _
      · rfl
    · intro r hr m' hm' hqueue hstate
      change m' ∈ db.messages at hm'
      rw [hm] at hm'
      obtain ⟨m, hmem, he⟩ := List.mem_filterMap.1 hm'
      unfold rolledBack at he
      split_ifs at he with hadded hremoved
      · cases he
        exact hwakes r hr m hmem hremoved.1 hremoved.2 hqueue
      · cases he
        exact h.unmatched r hr _ hmem hqueue hstate
  | persist =>
    obtain ⟨left, out, n, he, -⟩ := @persistStep_spec env s
    exact Awake.step_of (congrArg after he) ⟨h.sane, h.available, h.unmatched⟩

/-- In every run whose commits wake all they make messages available for, and whose rollbacks make
none available that somebody waits for, nobody waits while there is a message. -/
theorem unmatched_of_reachable {s : Group} (h : ((timely env).restrict wakesAll).Reachable s) :
    ∀ r ∈ s.pending.requests, ∀ m ∈ s.queuebase.messages, m.queue = r.queue → m.state = .enqueued →
      ¬ Matches r.selector m := by
  have hawake : Awake env s := by
    refine h.invariant ?_ fun t e ht he => ht.step he.1.2 he.2
    rintro s ⟨db, hdb, havailable, rfl⟩
    exact ⟨(opened_of_reachable hdb).toSane, havailable, nofun⟩
  exact hawake.unmatched

/-! ### A rollback -/

/-- A group with a queue whose messages can be rolled back once. -/
def retryingGroup : Group := start ([Call.create "a" 1 1].foldl Database.call (Database.«open» "g" 0))

theorem retryingGroup_init : (timely someEnvironment).init retryingGroup := by
  have hnone : retryingGroup.queuebase.messages = [] := by decide
  refine ⟨retryingGroup.queuebase, reachable_calls _ (.of_init ⟨"g", 0, rfl⟩), ?_, rfl⟩
  rw [hnone]
  nofun

theorem someMessage_comesNow (trid : Option Transaction.ID) : comesNow someEnvironment (.enqueue (someMessage trid)) := by
  intro n
  change (0 : Int) < n + 10
  omega

/-- One waits while a message is enqueued in a transaction, the other comes when it has been taken. -/
def committedOnce : List Event :=
  [.dequeue (waiter 1), .enqueue (someMessage (some someID)), .commit ⟨0, ⟨8, 8⟩, someID⟩, .dequeue (waiter 2)]

theorem committedOnce_unmatched :
    ((timely someEnvironment).restrict wakesAll).Reachable (committedOnce.foldl (step someEnvironment) retryingGroup) ∧
      ∀ r ∈ (committedOnce.foldl (step someEnvironment) retryingGroup).pending.requests,
        ∀ m ∈ (committedOnce.foldl (step someEnvironment) retryingGroup).queuebase.messages, m.queue = r.queue →
          m.state = .enqueued → ¬ Matches r.selector m := by
  have h : ((timely someEnvironment).restrict wakesAll).Reachable
      (committedOnce.foldl (step someEnvironment) retryingGroup) :=
    Machine.Reachable.foldl (M := (timely someEnvironment).restrict wakesAll) (.of_init retryingGroup_init)
      ⟨⟨⟨by decide +kernel, trivial⟩, trivial⟩, ⟨⟨by decide +kernel, someMessage_comesNow _⟩, trivial⟩,
        ⟨⟨by decide +kernel, trivial⟩, .inr (by decide +kernel)⟩, ⟨⟨by decide +kernel, trivial⟩, trivial⟩, trivial⟩
  exact ⟨h, unmatched_of_reachable h⟩

/-- A transaction takes the message, another request waits, and the transaction is rolled back. -/
def rolledBackOnce : List Event :=
  [.enqueue (someMessage none), .dequeue { waiter 1 with trid := some someID }, .dequeue (waiter 2),
    .rollback ⟨0, ⟨8, 8⟩, someID⟩]

theorem rolledBackOnce_missed : ∃ s, (timely someEnvironment).Reachable s ∧
    ∃ r ∈ s.pending.requests, ∃ m ∈ s.queuebase.messages, m.queue = r.queue ∧ m.state = .enqueued ∧ Matches r.selector m :=
  ⟨rolledBackOnce.foldl (step someEnvironment) retryingGroup,
    Machine.Reachable.foldl (.of_init retryingGroup_init)
      ⟨⟨rfl, someMessage_comesNow _⟩, ⟨by decide +kernel, trivial⟩, ⟨by decide +kernel, trivial⟩,
        ⟨by decide +kernel, trivial⟩, trivial⟩, by decide +kernel⟩

end Group

end Casual.Queue
