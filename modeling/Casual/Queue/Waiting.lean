/-
Where every dequeue request is that a queue group was sent: it waits, it has been answered, it has
been forgotten, or its process has died. When the requests that a commit wakes are served, none is
lost and none is kept twice.
-/
import Casual.Lib.Run
import Casual.Queue.Handlers
import Casual.Queue.Statistics

namespace Casual.Queue

open Casual.Common Casual.Communication Casual.Lib

/-- What tells a request from others: the queue its reply goes to, and its correlation. -/
def Message.DequeueRequest.key (r : Message.DequeueRequest) : Nat × Uuid := (r.process.queue, r.correlation)

/-- A queue group, the dequeue requests it has been sent, and those that have been forgotten or
whose process has died while they waited. -/
structure Watched where
  group : Group
  asked : List Message.DequeueRequest
  forgotten : List Message.DequeueRequest
  died : List Message.DequeueRequest

/-- The dequeue request an event is. -/
def Event.asked : Event → List Message.DequeueRequest
  | .dequeue r => [r]
  | _ => []

/-- The request an event makes the group forget. -/
def Event.forgotten (s : Group) : Event → List Message.DequeueRequest
  | .forget message => (s.pending.requests.find? (Pending.forgets message)).toList
  | _ => []

/-- The requests that wait for a process of which an event tells that it has died. -/
def Event.died (s : Group) : Event → List Message.DequeueRequest
  | .dead pid => s.pending.requests.filter fun r => r.process.pid == pid
  | _ => []

namespace Watched

variable (env : Environment)

/-- An event, and what becomes of the requests. -/
def step (w : Watched) (e : Event) : Watched where
  group := w.group.step env e
  asked := w.asked ++ e.asked
  forgotten := w.forgotten ++ e.forgotten w.group
  died := w.died ++ e.died w.group

/-- The runs of a queue group, from when it has opened its queuebase. -/
def waiting : Machine Watched Event where
  init w := ∃ db, queuebase.Reachable db ∧ w = ⟨Group.start db, [], [], []⟩
  admits w _ := w.group.running = true
  step := step env

/-- Every request that was asked is in one place: among those that wait, those that have been
answered, those that have been forgotten and those whose process has died. -/
def Accounted (w : Watched) : Prop :=
  (w.asked.map (·.key)).Perm
    (w.group.pending.requests.map (·.key) ++ (Group.answers w.group.sent ++ Group.answers w.group.refused) ++
      w.forgotten.map (·.key) ++ w.died.map (·.key))

/-- Each request that is woken comes while fewer have been answered than were enqueued, and finds a
message among those that are left. -/
def served : List Message.DequeueRequest → (Nat → Nat) → Database → Nat → Bool
  | [], _, _, _ => true
  | r :: rest, enqueued, db, n =>
    decide (enqueued r.queue > 0) &&
      match Database.dequeue r (env.clock n) db with
      | .ok reply db =>
        let m := Group.replyReading env r reply.message n
        !reply.message.isEmpty && !(r.trid.isSome && env.gone (n + 1) env.broker) &&
          served rest
            (if env.gone m r.process.queue then enqueued
              else Function.update enqueued r.queue (enqueued r.queue - 1)) db (m + 1)
      | .error _ _ => false

/-- The requests that an event wakes are served. -/
def servesWoken (s : Group) : Event → Bool
  | .enqueue message =>
    message.trid.isSome ||
      match Database.enqueue message (env.make s.readings) (env.clock s.readings) s.queuebase with
      | .ok _ db =>
        let woken := ((s.pending.enqueue none message.queue).commit none).1
        served env woken.requests woken.enqueued db (s.readings + 1)
      | .error _ _ => true
  | .commit message =>
    match Database.commit message.trid s.queuebase with
    | .ok _ db =>
      let woken := (s.pending.commit (some message.trid.xid)).1
      served env woken.requests woken.enqueued db s.readings
    | .error _ _ => true
  | _ => true

end Watched

/-! ## Counting -/

namespace Group

variable {env : Environment}

theorem count_cons' {α : Type} [BEq α] (a k : α) (l : List α) : (a :: l).count k = [a].count k + l.count k := by
  rw [List.count_cons, List.count_cons, List.count_nil]; omega

/-- How often a request has been answered. -/
def answeredCount (s : Group) (k : Nat × Uuid) : Nat := (answers s.sent).count k + (answers s.refused).count k

theorem Quiet.answeredCount {s t : Group} (h : Quiet s t) (k : Nat × Uuid) : t.answeredCount k = s.answeredCount k := by
  unfold Group.answeredCount; rw [h.sent, h.refused]

theorem answers_involvement (r : Message.DequeueRequest) (message : List Message.Dequeued) :
    answers (involvement env r message) = [] := by
  unfold involvement; split_ifs <;> rfl

/-- A reply answers its request once, whether it is sent or refused. -/
theorem answeredCount_answered (r : Message.DequeueRequest) (message : List Message.Dequeued) (db : Database) (s : Group)
    (k : Nat × Uuid) : (answered env r message db s).answeredCount k = s.answeredCount k + [r.key].count k := by
  have hanswer : answers [answer r message] = [r.key] := rfl
  unfold answeredCount answered
  simp only [answers_append, List.count_append, answers_involvement, List.count_nil]
  split_ifs
  · rw [hanswer]; simp only [answers, List.filterMap_nil, List.count_nil]; omega
  · rw [hanswer]; simp only [answers, List.filterMap_nil, List.count_nil]; omega

/-- Requests that are served are answered once each. -/
theorem wake_served : ∀ (rs : List Message.DequeueRequest) (enqueued : Nat → Nat) (s : Group), Database.Sane s.queuebase →
    Watched.served env rs enqueued s.queuebase s.readings = true →
    ∃ t, wake env rs enqueued s = .ok () t ∧ Database.Sane t.queuebase ∧ t.pending = s.pending ∧
      t.persistent = s.persistent ∧ ∀ k, t.answeredCount k = s.answeredCount k + (rs.map (·.key)).count k
  | [], _, s, hs, _ => ⟨s, rfl, hs, rfl, rfl, fun _ => rfl⟩
  | r :: rest, enqueued, s, hs, h => by
    unfold Watched.served at h
    rw [Bool.and_eq_true, decide_eq_true_eq] at h
    obtain ⟨hleft, h⟩ := h
    rcases Database.dequeue_spec hs r (env.clock s.readings) with ⟨-, hdequeue⟩ | ⟨row, db, -, hdequeue, hsane, -⟩
    · rw [hdequeue] at h
      cases h
    · rw [hdequeue] at h
      simp only [Bool.and_eq_true, Bool.not_eq_true'] at h
      obtain ⟨⟨-, hbroker⟩, h⟩ := h
      have hrequest := @dequeueRequest_answered env _ _ _ _ (fun h => absurd h (List.cons_ne_nil _ _)) hdequeue fun hi => by
        unfold involvement at hi
        split_ifs at hi with htrid
        · simpa [(Bool.and_eq_true _ _ ▸ htrid).2] using hbroker
        · exact absurd rfl hi
      cases hgone : env.gone (replyReading env r [Database.reply row] s.readings) r.process.queue with
      | true =>
        rw [hgone] at hrequest h
        obtain ⟨t, ht, hst, hp, hpers, hcount⟩ := wake_served rest enqueued (answered env r [Database.reply row] db s) hsane h
        refine ⟨t, (wake_unavailable hleft hrequest).trans ht, hst, hp, hpers, fun k => ?_⟩
        rw [hcount k, answeredCount_answered, List.map_cons, count_cons' r.key k (rest.map (·.key)), Nat.add_assoc]
      | false =>
        rw [hgone] at hrequest h
        obtain ⟨t, ht, hst, hp, hpers, hcount⟩ := wake_served rest _ (answered env r [Database.reply row] db s) hsane h
        refine ⟨t, (wake_answered hleft hrequest).trans ht, hst, hp, hpers, fun k => ?_⟩
        rw [hcount k, answeredCount_answered, List.map_cons, count_cons' r.key k (rest.map (·.key)), Nat.add_assoc]

theorem answers_step (s : Group) (e : Event) (k : Nat × Uuid) :
    (s.step env e).answeredCount k = (after (handle env e s)).answeredCount k := by
  obtain ⟨-, -, -, hsent, hrefused⟩ := @step_fields env s e
  unfold answeredCount; rw [hsent, hrefused]

end Group

namespace Pending

theorem find?_toList_append_eraseP {α : Type} (p : α → Bool) : ∀ l : List α, ((l.find? p).toList ++ l.eraseP p).Perm l
  | [] => by simp
  | a :: l => by
    cases h : p a with
    | true => simp [h]
    | false =>
      rw [List.find?_cons_of_neg (by simp [h]), List.eraseP_cons_of_neg (by simp [h])]
      exact List.perm_middle.trans (.cons a (find?_toList_append_eraseP p l))

/-- A forgotten request leaves the store. -/
theorem forget_perm (p : Pending) (message : Message.ForgetRequest) :
    ((p.requests.find? (forgets message)).toList ++ (p.forget message).2.requests).Perm p.requests := by
  have := find?_toList_append_eraseP (forgets message) p.requests
  unfold forget
  split_ifs with h
  · exact this
  · have hnone : p.requests.find? (forgets message) = none := by
      simpa using h
    rw [hnone]
    exact List.Perm.refl _

/-- So do the requests of a process that dies. -/
theorem erase_perm (p : Pending) (pid : Nat) :
    ((p.requests.filter fun r => r.process.pid == pid) ++ (p.erase pid).requests).Perm p.requests := by
  have := List.filter_append_perm (fun r : Message.DequeueRequest => r.process.pid == pid) p.requests
  exact this

end Pending

namespace Watched

variable {env : Environment}

open Casual.Queue.Group

/-- How often a request is in a list. -/
def keyCount (l : List Message.DequeueRequest) (k : Nat × Uuid) : Nat := (l.map (·.key)).count k

@[simp] theorem keyCount_nil (k : Nat × Uuid) : keyCount [] k = 0 := rfl

@[simp] theorem keyCount_append (l l' : List Message.DequeueRequest) (k : Nat × Uuid) :
    keyCount (l ++ l') k = keyCount l k + keyCount l' k := by
  unfold keyCount; rw [List.map_append, List.count_append]

theorem keyCount_perm {l l' : List Message.DequeueRequest} (h : l.Perm l') (k : Nat × Uuid) : keyCount l k = keyCount l' k :=
  (h.map Message.DequeueRequest.key).count_eq k

theorem accounted_iff (w : Watched) : Accounted w ↔ ∀ k, keyCount w.asked k =
    keyCount w.group.pending.requests k + w.group.answeredCount k + keyCount w.forgotten k + keyCount w.died k := by
  unfold Accounted answeredCount keyCount
  rw [List.perm_iff_count]
  simp only [List.count_append]

/-- The requests that a commit wakes are answered once each, if they are served. -/
theorem replies_served {trid : Option Transaction.XID} {s : Group} (hs : Database.Sane s.queuebase)
    (hserved : served env (s.pending.commit trid).1.requests (s.pending.commit trid).1.enqueued s.queuebase s.readings = true) :
    ∃ t, replies env trid s = .ok () t ∧ Database.Sane t.queuebase ∧ t.persistent = s.persistent ∧
      ∀ k, keyCount t.pending.requests k + t.answeredCount k = keyCount s.pending.requests k + s.answeredCount k := by
  obtain ⟨t, ht, hst, hpending, hpersistent, hcount⟩ :=
    wake_served _ _ { s with pending := (s.pending.commit trid).2 } hs hserved
  refine ⟨t, ht, hst, hpersistent, fun k => ?_⟩
  have hperm := keyCount_perm (s.pending.commit_perm trid) k
  rw [keyCount_append] at hperm
  have : t.answeredCount k = s.answeredCount k + keyCount (s.pending.commit trid).1.requests k := hcount k
  rw [hpending]
  change keyCount (s.pending.commit trid).2.requests k + _ = _
  omega

/-- What every event keeps. -/
structure Waits (w : Watched) : Prop where
  sane : Database.Sane w.group.queuebase
  persistent : answers w.group.persistent = []
  accounted : w.group.running = true → Accounted w

theorem answers_of_subset {l l' : List (Nat × Reply)} (h : l ⊆ l') (h' : answers l' = []) : answers l = [] := by
  unfold answers at h' ⊢
  rw [List.filterMap_eq_nil_iff] at h' ⊢
  exact fun m hm => h' m (h hm)

/-- A handler accounts for the request it is asked and those that are forgotten or die. -/
theorem Waits.of_handle {w : Watched} (h : Waits w) (hrun : w.group.running = true) {e : Event} {t : Group}
    (ht : after (handle env e w.group) = t) (hsane : Database.Sane t.queuebase) (hpersistent : answers t.persistent = [])
    (hcount : (w.group.step env e).running = true → ∀ k,
      keyCount e.asked k + keyCount w.group.pending.requests k + w.group.answeredCount k =
        keyCount t.pending.requests k + t.answeredCount k + keyCount (e.forgotten w.group) k + keyCount (e.died w.group) k) :
    Waits (w.step env e) := by
  obtain ⟨hbase, hpending, hpers, -⟩ := @step_fields env w.group e
  rw [ht] at hbase hpending hpers
  refine ⟨hbase ▸ hsane, hpers ▸ hpersistent, fun hrunning => ?_⟩
  have hacc := (accounted_iff w).1 (h.accounted hrun)
  rw [accounted_iff]
  intro k
  have hk := hcount hrunning k
  have hw := hacc k
  have hanswers := @answers_step env w.group e k
  rw [ht] at hanswers
  simp only [Watched.step, keyCount_append, hpending, hanswers]
  omega

theorem Waits.of_ok {w : Watched} (h : Waits w) (hrun : w.group.running = true) {e : Event} {t : Group}
    (ht : handle env e w.group = .ok () t) (hsane : Database.Sane t.queuebase) (hpersistent : answers t.persistent = [])
    (hcount : ∀ k, keyCount e.asked k + keyCount w.group.pending.requests k + w.group.answeredCount k =
      keyCount t.pending.requests k + t.answeredCount k + keyCount (e.forgotten w.group) k + keyCount (e.died w.group) k) :
    Waits (w.step env e) :=
  h.of_handle hrun (congrArg after ht) hsane hpersistent fun _ => hcount

/-- A quiet handler of an event that asks nothing, forgets nothing and kills nobody. -/
theorem Waits.of_quiet {w : Watched} (h : Waits w) (hrun : w.group.running = true) {e : Event} {s : Group}
    (hs : Quiet s (after (handle env e w.group))) (hsane : Database.Sane s.queuebase)
    (hpersistent : answers s.persistent = []) (hanswers : ∀ k, s.answeredCount k = w.group.answeredCount k)
    (hcount : ∀ k, keyCount e.asked k + keyCount w.group.pending.requests k =
      keyCount s.pending.requests k + keyCount (e.forgotten w.group) k + keyCount (e.died w.group) k) :
    Waits (w.step env e) := by
  refine h.of_handle hrun rfl (hs.queuebase ▸ hsane) (answers_of_subset hs.persistent hpersistent) fun _ k => ?_
  have := hcount k
  have := hanswers k
  rw [hs.pending, hs.answeredCount]
  omega

/-- An event keeps what every event keeps when the requests it wakes are served. -/
theorem Waits.step {w : Watched} (h : Waits w) (hrun : w.group.running = true) {e : Event}
    (hserves : servesWoken env w.group e = true) : Waits (w.step env e) := by
  cases e with
  | dead pid =>
    refine h.of_quiet (s := { w.group with pending := w.group.pending.erase pid }) hrun (Quiet.refl _) h.sane h.persistent
      (fun _ => rfl) fun k => ?_
    have := keyCount_perm (w.group.pending.erase_perm pid) k
    simp only [keyCount_append] at this
    simp only [Event.asked, Event.forgotten, Event.died, keyCount_nil]
    omega
  | enqueue message =>
    rcases @enqueueRequest_cases env _ h.sane message with ⟨-, he⟩ | ⟨reply, db, hdb, hsane, -, hnone, hsome⟩
    · exact h.of_ok hrun he h.sane h.persistent fun k => by
        simp [Event.asked, Event.forgotten, Event.died]; rfl
    · cases htrid : message.trid with
      | none =>
        simp only [servesWoken, htrid, hdb, Option.isSome_none, Bool.false_or] at hserves
        obtain ⟨t, ht, hst, hpers, hcount⟩ := @replies_served env none { w.group with
              queuebase := db
              readings := w.group.readings + 1
              pending := w.group.pending.enqueue none message.queue
              persistent := w.group.persistent ++ [(message.process.queue, .enqueue message.correlation reply)] } hsane hserves
        refine h.of_ok hrun (hnone htrid t ht) hst ?_ fun k => ?_
        · rw [hpers, answers_append, h.persistent]; rfl
        · have hk : keyCount t.pending.requests k + t.answeredCount k =
              keyCount (w.group.pending.enqueue none message.queue).requests k + w.group.answeredCount k := hcount k
          rw [Pending.enqueue_requests] at hk
          simp only [Event.asked, Event.forgotten, Event.died, keyCount_nil]
          omega
      | some trid =>
        exact h.of_quiet hrun (hsome trid htrid) hsane h.persistent (fun _ => rfl) fun k => by
          simp [Event.asked, Event.forgotten, Event.died]
  | dequeue r =>
    rcases dequeueRequest_cases (r := r) h.sane with ⟨hblock, -, he⟩ | ⟨message, db, -, hsane, ⟨-, he⟩ | he⟩
    · refine h.of_ok hrun (handle_dequeue he) h.sane h.persistent fun k => ?_
      rw [Pending.dequeue_requests, if_pos hblock]
      simp only [Event.asked, Event.forgotten, Event.died, keyCount_append, keyCount_nil, answeredCount]
      omega
    · -- the pump has ended
      refine h.of_handle hrun (congrArg after (handle_dequeue_error he)) hsane h.persistent fun hrunning _ => ?_
      obtain ⟨t, ht, -⟩ := handle_ok hrunning
      rw [handle_dequeue_error he] at ht
      cases ht
    · have hafter : after (handle env (.dequeue r) w.group) = answered env r message db w.group := by
        split_ifs at he
        · exact congrArg after (handle_dequeue_error he)
        · exact congrArg after (handle_dequeue he)
      refine h.of_handle hrun hafter hsane h.persistent fun _ k => ?_
      rw [answeredCount_answered]
      simp only [Event.asked, Event.forgotten, Event.died, keyCount_nil]
      change keyCount [r] k + _ + _ = keyCount w.group.pending.requests k + (_ + keyCount [r] k) + 0 + 0
      omega
  | forget message =>
    refine h.of_quiet hrun (forgetRequest_quiet message w.group) h.sane h.persistent (fun _ => rfl) fun k => ?_
    have := keyCount_perm (w.group.pending.forget_perm message) k
    simp only [keyCount_append] at this
    simp only [Event.asked, Event.forgotten, Event.died, keyCount_nil]
    omega
  | commit message =>
    rcases @commitRequest_cases env _ h.sane message with ⟨-, he⟩ | ⟨db, hdb, hsane, -, hreplies⟩
    · refine h.of_ok hrun he h.sane ?_ fun k => ?_
      · rw [answers_append, h.persistent]; rfl
      · simp [Event.asked, Event.forgotten, Event.died]; rfl
    · simp only [servesWoken, hdb] at hserves
      obtain ⟨t, ht, hst, hpers, hcount⟩ := @replies_served env (some message.trid.xid)
        { w.group with queuebase := db } hsane hserves
      refine h.of_ok hrun (hreplies t ht) hst ?_ fun k => ?_
      · rw [answers_append, hpers, h.persistent]; rfl
      · have hk : keyCount t.pending.requests k + t.answeredCount k =
            keyCount w.group.pending.requests k + w.group.answeredCount k := hcount k
        simp only [Event.asked, Event.forgotten, Event.died, keyCount_nil]
        change 0 + _ + _ = _ + t.answeredCount k + 0 + 0
        omega
  | rollback message =>
    obtain ⟨db, he, hsane, -⟩ := Database.rollback_spec h.sane message.trid
    refine h.of_ok hrun (rollbackRequest_eq he) hsane ?_ fun k => ?_
    · rw [answers_append, h.persistent]; rfl
    · simp [Event.asked, Event.forgotten, Event.died]; rfl
  | persist =>
    obtain ⟨left, out, n, he, hleft, hout⟩ := @persistStep_spec env w.group
    refine h.of_ok hrun he h.sane (answers_of_subset hleft h.persistent) fun k => ?_
    have hnone : answers out = [] := answers_of_subset hout h.persistent
    simp only [Event.asked, Event.forgotten, Event.died, keyCount_nil, answeredCount, answers_append, hnone, List.append_nil]
    omega

theorem waits_start {db : Database} (h : queuebase.Reachable db) : Waits ⟨Group.start db, [], [], []⟩ :=
  ⟨(Database.opened_of_reachable h).toSane, rfl, fun _ => List.Perm.refl _⟩

/-- When the requests that are woken are served, every request that was asked is in one place as
long as the group runs, and a blocking request that finds nothing is stored once. -/
theorem accounted_of_reachable {w : Watched}
    (h : ((waiting env).restrict fun w e => servesWoken env w.group e = true).Reachable w) (hrun : w.group.running = true) :
    Accounted w ∧ ∀ r : Message.DequeueRequest, r.block = true →
      Database.select r (env.clock w.group.readings) w.group.queuebase = none →
        (w.group.step env (.dequeue r)).pending.requests = w.group.pending.requests ++ [r] := by
  have hw : Waits w := h.invariant (fun _ ⟨db, hdb, hs⟩ => hs ▸ waits_start hdb) fun t e ht he => ht.step he.1 he.2
  refine ⟨hw.accounted hrun, fun r hblock hselect => ?_⟩
  rcases Database.dequeue_spec hw.sane r (env.clock w.group.readings) with ⟨-, hdequeue⟩ | ⟨row, db, hrow, -⟩
  · rw [(@step_fields env w.group (.dequeue r)).2.1, handle_dequeue (dequeueRequest_stored hblock hdequeue), after_ok,
      Pending.dequeue_requests, if_pos hblock]
  · rw [hselect] at hrow
    cases hrow

/-! ### Two that wait for one message -/

instance : ∀ w e, Decidable ((waiting env).admits w e) := fun _ _ => inferInstanceAs (Decidable (_ = true))

/-- A group with a queue and no messages. -/
def someGroup : Watched := ⟨Group.start ([Call.create "a" 0 1].foldl Database.call (Database.«open» "g" 0)), [], [], []⟩

theorem someGroup_init : (waiting someEnvironment).init someGroup :=
  ⟨_, Database.reachable_calls _ (.of_init ⟨"g", 0, rfl⟩), rfl⟩

/-- One waits, and is answered. -/
def oneWaits : List Event := [.dequeue (waiter 1), .enqueue (someMessage none)]

theorem oneWaits_accounted : Accounted (oneWaits.foldl (waiting someEnvironment).step someGroup) :=
  (accounted_of_reachable (.foldl (.of_init someGroup_init) (by decide +kernel)) (by decide +kernel)).1

/-- Two wait, and the second is lost when the first has been answered. -/
def twoWait : List Event := [.dequeue (waiter 1), .dequeue (waiter 2), .enqueue (someMessage none)]

theorem twoWait_lost : ∃ w, (waiting someEnvironment).Reachable w ∧ w.group.running = true ∧ ¬ Accounted w :=
  ⟨twoWait.foldl (waiting someEnvironment).step someGroup, .foldl (.of_init someGroup_init) (by decide +kernel),
    by decide +kernel, by unfold Accounted; decide +kernel⟩

end Watched

end Casual.Queue
