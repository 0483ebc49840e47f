/-
`queue/common/queue.cpp`: a process looks up the queues it enqueues to and dequeues from. The reply to a
lookup has no correlation and is received by its type.
-/
import Casual.Lib.Run
import Casual.Queue.Broker

namespace Casual.Queue

open Casual.Common Casual.Communication Casual.Lib

namespace Broker

/-! ## What the queue broker says about queues -/

/-- What the queue broker has registered for a name; a name that is not known has an empty reply. -/
def registered (s : Broker) (name : String) : LookupReply :=
  ((s.queues.find? fun q => q.1 == name).map (·.2)).getD ⟨⟨0, 0⟩, 0⟩

/-- The reply to a lookup, when it is sent to a queue. -/
def lookedUp (queue : Nat) (x : Process × Sent) : Option LookupReply :=
  match x.2 with
  | .lookup reply => if x.1.queue = queue then some reply else none
  | _ => none

variable {env : Environment} {s t : Broker}

/-- More has been sent, and all of it meets a condition. -/
def Says (P : Process × Sent → Prop) (s t : Broker) : Prop := ∃ l, t.sent = s.sent ++ l ∧ ∀ x ∈ l, P x

section Says

variable {P : Process × Sent → Prop}

instance : Std.Refl (Says P) := ⟨fun s => ⟨[], by simp, by simp⟩⟩

instance : IsTrans Broker (Says P) := by
  constructor
  rintro s t u ⟨l, hl, hP⟩ ⟨l', hl', hP'⟩
  refine ⟨l ++ l', by rw [hl', hl, List.append_assoc], fun x hx => ?_⟩
  rcases List.mem_append.1 hx with hx | hx
  · exact hP x hx
  · exact hP' x hx

theorem says_blockingSend {receiver : Process} {message : Sent} (h : P (receiver, message)) :
    Moves (Says P) (blockingSend env receiver message) := by
  constructor
  intro s
  unfold blockingSend
  split_ifs
  · exact ⟨[], by simp, by simp⟩
  · exact ⟨[(receiver, message)], rfl, by simpa using h⟩

theorem says_nonBlockingSend {receiver : Process} {message : Sent} (h : P (receiver, message)) :
    Moves (Says P) (nonBlockingSend env receiver message) := by
  constructor
  intro s
  unfold nonBlockingSend
  split_ifs
  · exact ⟨[], by simp, by simp⟩
  · exact ⟨[], by simp, by simp⟩
  · exact ⟨[(receiver, message)], rfl, by simpa using h⟩

theorem says_partition {message : Sent} (h : ∀ receiver, P (receiver, message)) :
    ∀ groups, Moves (Says P) (partition env message groups)
  | [] => .pure _
  | group :: rest =>
    .bind (says_nonBlockingSend (h group)) fun _ => .bind (says_partition h rest) fun _ => .pure _

theorem says_send {message : Sent} (h : ∀ receiver, P (receiver, message)) (groups : List Process) :
    Moves (Says P) (send env groups message) :=
  .bind (says_partition h groups) fun _ => .bind (.forM (fun group => says_blockingSend (h group)) _) fun _ => .pure _

/-- A program that changes something else. -/
theorem says_same {α : Type} {x : M α} (h : ∀ s, (after (x s)).sent = s.sent) : Moves (Says P) x :=
  ⟨fun s => ⟨[], by simp [h s], by simp⟩⟩

theorem says_request {kind : Kind} {m : ResourceRequest} (hrequest : ∀ receiver k q, P (receiver, .request k q))
    (hreply : ∀ receiver k r, P (receiver, .reply k r)) : Moves (Says P) (request env kind m) := by
  refine .bind .get fun s => ?_
  dsimp only
  split
  · refine .tryCatch (.bind (says_send (fun receiver => hrequest receiver _ _) _) fun groups => ?_) fun _ => ?_
    · exact says_same fun s => rfl
    · exact says_blockingSend (hreply _ _ _)
  · exact says_blockingSend (hreply _ _ _)

theorem says_reply {kind : Kind} {m : ResourceReply} (hreply : ∀ receiver k r, P (receiver, .reply k r)) :
    Moves (Says P) (reply env kind m) := by
  refine .bind .get fun s => ?_
  dsimp only
  split
  · exact .pure _
  · refine .bind ?_ fun _ => .ite (.bind (says_blockingSend (hreply _ _ _)) fun _ => ?_) (.pure _)
    · exact says_same fun s => rfl
    · exact says_same fun s => rfl

end Says

theorem lookupRequest_eq (process : Process) (name : String) (s : Broker) :
    lookupRequest env process name s = blockingSend env process (.lookup (registered s name)) s := by
  unfold lookupRequest registered
  cases s.queues.find? fun q => q.1 == name <;> rfl

theorem step_eq (s : Broker) (e : Event) :
    (s.step env e).sent = (after (handle env e s)).sent ∧ (s.step env e).queues = (after (handle env e s)).queues := by
  unfold step
  cases handle env e s <;> exact ⟨rfl, rfl⟩

/-- Only the one who asks is told about a queue, and what is registered for it. -/
theorem says_step (s : Broker) (e : Event) :
    Says (fun x => ∀ reply, x.2 = .lookup reply → ∃ process name, e = .lookup process name ∧ x.1 = process ∧
      reply = registered s name) s (s.step env e) := by
  rw [Says, (step_eq s e).1]
  cases e with
  | exit pid => exact (says_same fun s => rfl).after s
  | connect process queues => exact (says_same fun s => rfl).after s
  | lookup process name =>
    have h := (@says_blockingSend env (fun x => ∀ reply, x.2 = .lookup reply → ∃ p n,
      Event.lookup process name = .lookup p n ∧ x.1 = p ∧ reply = registered s n) process
      (.lookup (registered s name)) fun reply hreply => ⟨process, name, rfl, rfl, by cases hreply; rfl⟩).after s
    rw [← lookupRequest_eq] at h
    exact h
  | involved process trid => exact (says_same fun s => rfl).after s
  | request kind m => exact (says_request (fun _ _ _ _ h => by cases h) fun _ _ _ _ h => by cases h).after s
  | reply kind m => exact (says_reply fun _ _ _ _ h => by cases h).after s

/-! ## A process and its lookups -/

/-- What a process asks of a group. A dequeue that is left by an exception is forgotten. -/
inductive Operation
  | enqueue
  | dequeue
  | forget
  deriving DecidableEq

/-- What the process is doing. -/
inductive Calling
  | idle
  -- before `Lookup( queue)`
  | started (operation : Operation) (name : String)
  -- `lookup()`
  | lookup (operation : Operation) (name : String)
  | found (operation : Operation) (name : String) (group : LookupReply)
  -- the reply of the group
  | waiting (operation : Operation) (name : String)
  deriving DecidableEq

/-- The name that is to be looked up. -/
def Calling.starts : Calling → Option String
  | .started _ name => some name
  | _ => none

/-- An exception in a dequeue runs `forget_blocking`, and what is thrown there is swallowed. -/
def thrown (operation : Operation) (name : String) : Calling :=
  match operation with
  | .dequeue => .started .forget name
  | _ => .idle

/-- A request that was sent to a group: what was named, where it was sent, and what was registered from the
lookup to the sending. -/
structure Asked where
  operation : Operation
  name : String
  group : LookupReply
  seen : List (String → LookupReply)

/-- It was sent to where the queue that was named was registered. -/
def Asked.Addressed (r : Asked) : Prop := ∃ queues ∈ r.seen, r.group = queues r.name

instance (r : Asked) : Decidable r.Addressed := inferInstanceAs (Decidable (∃ queues ∈ r.seen, r.group = queues r.name))

/-- The queue broker and the process: the lookups that have been sent and not been read, the replies that are
on their way and those that have arrived and not been received, what has been registered since the last
lookup was sent, and what was sent to the groups. -/
structure Lookups where
  broker : Broker
  calling : Calling
  requests : List String
  flying : List LookupReply
  inbox : List LookupReply
  seen : List (String → LookupReply)
  asked : List Asked

namespace Lookups

/-- What happens: the process is called, sends its lookup, receives a reply to a lookup, sends its request,
gets the reply, or is left by an exception; the queue broker reads a lookup of the process, or handles
another message; a reply arrives. -/
inductive Action
  | call (operation : Operation) (name : String)
  | ask
  | take
  | send
  | answered
  | interrupt
  | read
  | other (e : Event)
  | arrive (i : Nat)

variable (env : Environment) (process : Process)

/-- The queue broker has handled a message. -/
def handled (w : Lookups) (e : Event) : Lookups :=
  let broker := w.broker.step env e
  { w with
    broker := broker
    flying := w.flying ++ (broker.sent.drop w.broker.sent.length).filterMap (lookedUp process.queue)
    seen := w.seen ++ [registered broker] }

/-- A reply to a lookup is received, the first that has arrived. -/
def receive (w : Lookups) (operation : Operation) (name : String) : Lookups :=
  match w.inbox with
  | [] => w
  | group :: rest =>
    { w with
      inbox := rest
      calling := if operation = .enqueue ∧ group.queue = 0 then thrown operation name else .found operation name group }

/-- What the caller or the broker does. -/
def step (w : Lookups) (a : Action) : Lookups :=
  match a, w.calling with
  | .call operation name, .idle => { w with calling := .started operation name }
  | .ask, .started operation name =>
    { w with calling := .lookup operation name, requests := w.requests ++ [name], seen := [registered w.broker] }
  | .take, .lookup operation name => w.receive operation name
  | .send, .found operation name group =>
    { w with calling := .waiting operation name, asked := w.asked ++ [⟨operation, name, group, w.seen⟩] }
  | .answered, .waiting _ _ => { w with calling := .idle }
  | .interrupt, .started operation name => { w with calling := thrown operation name }
  | .interrupt, .lookup operation name => { w with calling := thrown operation name }
  | .interrupt, .found operation name _ => { w with calling := thrown operation name }
  | .interrupt, .waiting operation name => { w with calling := thrown operation name }
  | .read, _ =>
    match w.requests with
    | name :: rest => handled env process { w with requests := rest } (.lookup process name)
    | [] => w
  | .other e, _ => handled env process w e
  | .arrive i, _ =>
    match w.flying[i]? with
    | some reply => { w with flying := w.flying.eraseIdx i, inbox := w.inbox ++ [reply] }
    | none => w
  | _, _ => w

/-- The process calls `enqueue` or `dequeue`, the queue broker runs, and others are other processes. -/
def admits (w : Lookups) : Action → Prop
  | .call operation _ => operation ≠ .forget
  | .read => w.broker.running = true
  | .other (.lookup other _) => w.broker.running = true ∧ other.queue ≠ process.queue
  | .other _ => w.broker.running = true
  | _ => True

/-- The runs of a process and a queue broker that has just started. -/
def lookups : Machine Lookups Action where
  init w := ∃ groups queues, w = ⟨start groups queues, .idle, [], [], [], [], []⟩
  admits w a := admits process w a
  step w a := w.step env process a

/-- No lookup of another name is to be answered, and no reply is to be received that differs from what is
registered for the name. -/
def Settled (w : Lookups) (name : String) : Prop :=
  (∀ other ∈ w.requests, other = name) ∧ ∀ reply ∈ w.flying ++ w.inbox, reply = registered w.broker name

instance (w : Lookups) (name : String) : Decidable (w.Settled name) := inferInstanceAs (Decidable (_ ∧ _))

/-- A lookup is sent when nothing is left of lookups that were given up, but what would answer it too. -/
def Orderly (w : Lookups) : Action → Prop
  | .ask => ∀ name ∈ w.calling.starts, w.Settled name
  | _ => True

/-! ## Where the requests are sent -/

/-- What is to be answered and received while a lookup is made, and what has been found. -/
structure Kept (w : Lookups) : Prop where
  addressed : ∀ r ∈ w.asked, r.Addressed
  now : ∀ operation name, w.calling = .lookup operation name → registered w.broker ∈ w.seen
  requests : ∀ operation name, w.calling = .lookup operation name → ∀ other ∈ w.requests, other = name
  replies : ∀ operation name, w.calling = .lookup operation name →
    ∀ reply ∈ w.flying ++ w.inbox, ∃ queues ∈ w.seen, reply = queues name
  found : ∀ operation name group, w.calling = .found operation name group → ∃ queues ∈ w.seen, group = queues name

variable {env process} {w : Lookups}

theorem thrown_ne_lookup (operation operation' : Operation) (name name' : String) :
    thrown operation name ≠ .lookup operation' name' := by
  cases operation <;> exact nofun

theorem thrown_ne_found (operation operation' : Operation) (name name' : String) (group : LookupReply) :
    thrown operation name ≠ .found operation' name' group := by
  cases operation <;> exact nofun

/-- Nothing is looked up, whatever is still to come. -/
theorem Kept.leaves (h : Kept w) {calling : Calling} (hlookup : ∀ operation name, calling ≠ .lookup operation name)
    (hfound : ∀ operation name group, calling ≠ .found operation name group) : Kept { w with calling := calling } :=
  ⟨h.addressed, fun _ _ hc => absurd hc (hlookup _ _), fun _ _ hc => absurd hc (hlookup _ _),
    fun _ _ hc => absurd hc (hlookup _ _), fun _ _ _ hc => absurd hc (hfound _ _ _)⟩

theorem Kept.throws (h : Kept w) (operation : Operation) (name : String) :
    Kept { w with calling := thrown operation name } :=
  h.leaves (fun _ _ => thrown_ne_lookup _ _ _ _) fun _ _ _ => thrown_ne_found _ _ _ _ _

/-- What the queue broker sends to the process when it handles a message. -/
theorem mem_handled {e : Event} {reply : LookupReply} (h : reply ∈ (handled env process w e).flying) :
    reply ∈ w.flying ∨ ∃ other name, e = .lookup other name ∧ other.queue = process.queue ∧
      reply = registered w.broker name := by
  rcases List.mem_append.1 h with h | h
  · exact .inl h
  · obtain ⟨x, hx, hreply⟩ := List.mem_filterMap.1 h
    obtain ⟨l, hl, hall⟩ := @says_step env w.broker e
    rw [hl, List.drop_left] at hx
    unfold lookedUp at hreply
    split at hreply
    · next reply' hsent =>
      split_ifs at hreply with hqueue
      cases hreply
      obtain ⟨other, name, he, hreceiver, hregistered⟩ := hall x hx _ hsent
      exact .inr ⟨other, name, he, hreceiver ▸ hqueue, hregistered⟩
    · cases hreply

theorem Kept.handled (h : Kept w) {e : Event}
    (hown : ∀ other name, e = .lookup other name → other.queue = process.queue →
      ∀ operation name', w.calling = .lookup operation name' → name = name') : Kept (handled env process w e) := by
  refine ⟨h.addressed, fun _ _ _ => List.mem_append_right _ (List.mem_singleton_self _), h.requests, ?_, ?_⟩
  · intro operation name hcalling reply hreply
    have hold : ∀ queues ∈ w.seen, reply = queues name →
        ∃ queues ∈ (Lookups.handled env process w e).seen, reply = queues name :=
      fun queues hq he => ⟨queues, List.mem_append_left _ hq, he⟩
    rcases List.mem_append.1 hreply with hreply | hreply
    · rcases mem_handled hreply with hreply | ⟨other, name', he, hqueue, rfl⟩
      · obtain ⟨queues, hq, he⟩ := h.replies operation name hcalling reply (List.mem_append_left _ hreply)
        exact hold queues hq he
      · rw [hown other name' he hqueue operation name hcalling] at hold ⊢
        exact hold _ (h.now operation name hcalling) rfl
    · obtain ⟨queues, hq, he⟩ := h.replies operation name hcalling reply (List.mem_append_right _ hreply)
      exact hold queues hq he
  · intro operation name group hcalling
    obtain ⟨queues, hq, he⟩ := h.found operation name group hcalling
    exact ⟨queues, List.mem_append_left _ hq, he⟩

theorem Kept.ask (h : Kept w) {operation : Operation} {name : String} (hcalling : w.calling = .started operation name)
    (horderly : Orderly w .ask) :
    Kept { w with calling := .lookup operation name, requests := w.requests ++ [name], seen := [registered w.broker] } := by
  obtain ⟨hrequests, hreplies⟩ := horderly name (by rw [hcalling]; rfl)
  refine ⟨h.addressed, fun _ _ _ => List.mem_singleton_self _, ?_, ?_, nofun⟩
  · rintro _ _ hc other hother
    cases hc
    rcases List.mem_append.1 hother with hother | hother
    · exact hrequests other hother
    · exact List.mem_singleton.1 hother
  · rintro _ _ hc reply hreply
    cases hc
    exact ⟨_, List.mem_singleton_self _, hreplies reply hreply⟩

theorem Kept.receive (h : Kept w) {operation : Operation} {name : String} (hcalling : w.calling = .lookup operation name) :
    Kept (w.receive operation name) := by
  unfold Lookups.receive
  cases hinbox : w.inbox with
  | nil => exact h
  | cons group rest =>
    obtain ⟨queues, hq, he⟩ := h.replies operation name hcalling group (by rw [hinbox]; simp)
    dsimp only
    split_ifs
    · exact ⟨h.addressed, fun _ _ hc => absurd hc (thrown_ne_lookup _ _ _ _), fun _ _ hc => absurd hc (thrown_ne_lookup _ _ _ _),
        fun _ _ hc => absurd hc (thrown_ne_lookup _ _ _ _), fun _ _ _ hc => absurd hc (thrown_ne_found _ _ _ _ _)⟩
    · refine ⟨h.addressed, nofun, nofun, nofun, ?_⟩
      rintro _ _ _ hc
      cases hc
      exact ⟨queues, hq, he⟩

theorem Kept.send (h : Kept w) {operation : Operation} {name : String} {group : LookupReply}
    (hcalling : w.calling = .found operation name group) :
    Kept { w with calling := .waiting operation name, asked := w.asked ++ [⟨operation, name, group, w.seen⟩] } := by
  refine ⟨fun r hr => ?_, nofun, nofun, nofun, nofun⟩
  rcases List.mem_append.1 hr with hr | hr
  · exact h.addressed r hr
  · rw [List.mem_singleton.1 hr]
    exact h.found operation name group hcalling

theorem Kept.arrive (h : Kept w) {i : Nat} {reply : LookupReply} (hreply : w.flying[i]? = some reply) :
    Kept { w with flying := w.flying.eraseIdx i, inbox := w.inbox ++ [reply] } := by
  refine ⟨h.addressed, h.now, h.requests, fun operation name hcalling other hother => ?_, h.found⟩
  refine h.replies operation name hcalling other ?_
  simp only [List.mem_append, List.mem_singleton] at hother ⊢
  rcases hother with hother | hother | rfl
  · exact .inl (List.mem_of_mem_eraseIdx hother)
  · exact .inr hother
  · exact .inl (List.mem_of_getElem? hreply)

theorem Kept.step (h : Kept w) {a : Action} (ha : admits process w a) (horderly : Orderly w a) :
    Kept (w.step env process a) := by
  unfold Lookups.step
  split
  · exact h.leaves nofun nofun
  · next hcalling => exact h.ask hcalling horderly
  · next hcalling => exact h.receive hcalling
  · next hcalling => exact h.send hcalling
  · exact h.leaves nofun nofun
  · exact h.throws _ _
  · exact h.throws _ _
  · exact h.throws _ _
  · exact h.throws _ _
  · split
    · next name rest hrequests =>
      -- all lookups that are to be answered are for the name
      have hrest : Kept { w with requests := rest } :=
        ⟨h.addressed, h.now, fun operation name' hcalling other hother => h.requests operation name' hcalling other
          (by rw [hrequests]; exact List.mem_cons_of_mem _ hother), h.replies, h.found⟩
      refine hrest.handled ?_
      rintro _ _ he - operation name' hcalling
      cases he
      exact h.requests operation name' hcalling name (by rw [hrequests]; exact List.mem_cons_self)
    · exact h
  · next e =>
    refine h.handled ?_
    rintro other name rfl hqueue
    exact absurd hqueue ha.2
  · split
    · next hreply => exact h.arrive hreply
    · exact h
  · exact h

/-- When lookups are sent in order, each request is sent to the group and the queue the queue broker has
registered for the name, at some moment since it was looked up. -/
theorem addressed_of_reachable (h : ((lookups env process).restrict Orderly).Reachable w) :
    ∀ r ∈ w.asked, r.Addressed := by
  have hkept : Kept w := by
    refine h.invariant (fun w hw => ?_) fun w a hw ha => hw.step ha.1 ha.2
    obtain ⟨groups, queues, rfl⟩ := hw
    exact ⟨nofun, nofun, nofun, nofun, nofun⟩
  exact hkept.addressed

/-! ### Some runs -/

section Examples

/-- All queues are there. -/
def allThere : Environment := ⟨⟨1, 10⟩, fun pid => pid, fun _ _ => false, fun _ _ => false⟩

/-- A queue broker that knows a queue of each of two groups. -/
def twoQueues : Lookups :=
  ⟨start [⟨"", ⟨5, 50⟩, true⟩, ⟨"", ⟨6, 60⟩, true⟩] [("a", ⟨⟨5, 50⟩, 3⟩), ("b", ⟨⟨6, 60⟩, 4⟩)], .idle, [], [], [], [], []⟩

instance : ∀ w a, Decidable (admits ⟨2, 20⟩ w a)
  | _, .call _ _ => inferInstanceAs (Decidable (_ ≠ _))
  | _, .ask => .isTrue trivial
  | _, .take => .isTrue trivial
  | _, .send => .isTrue trivial
  | _, .answered => .isTrue trivial
  | _, .interrupt => .isTrue trivial
  | _, .read => inferInstanceAs (Decidable (_ = _))
  | _, .other (.lookup _ _) => inferInstanceAs (Decidable (_ ∧ _))
  | _, .other (.exit _) => inferInstanceAs (Decidable (_ = _))
  | _, .other (.connect _ _) => inferInstanceAs (Decidable (_ = _))
  | _, .other (.involved _ _) => inferInstanceAs (Decidable (_ = _))
  | _, .other (.request _ _) => inferInstanceAs (Decidable (_ = _))
  | _, .other (.reply _ _) => inferInstanceAs (Decidable (_ = _))
  | _, .arrive _ => .isTrue trivial

instance : ∀ w a, Decidable (Orderly w a)
  | w, .ask => inferInstanceAs (Decidable (∀ name ∈ w.calling.starts, w.Settled name))
  | _, .call _ _ => .isTrue trivial
  | _, .take => .isTrue trivial
  | _, .send => .isTrue trivial
  | _, .answered => .isTrue trivial
  | _, .interrupt => .isTrue trivial
  | _, .read => .isTrue trivial
  | _, .other _ => .isTrue trivial
  | _, .arrive _ => .isTrue trivial

instance (w : Lookups) (a : Action) : Decidable ((lookups allThere ⟨2, 20⟩).admits w a) :=
  inferInstanceAs (Decidable (admits ⟨2, 20⟩ w a))

/-- An enqueue is left while it waits for the reply to its lookup, and another queue is enqueued to. -/
def abandoned : List Action :=
  [.call .enqueue "a", .ask, .interrupt, .call .enqueue "b", .ask, .read, .read, .arrive 0, .arrive 0, .take, .send]

/-- The second request is sent to the queue of the first. -/
theorem abandoned_misaddressed :
    (lookups allThere ⟨2, 20⟩).Reachable (abandoned.foldl (lookups allThere ⟨2, 20⟩).step twoQueues) ∧
      ∃ r ∈ (abandoned.foldl (lookups allThere ⟨2, 20⟩).step twoQueues).asked,
        r.name = "b" ∧ r.group = ⟨⟨5, 50⟩, 3⟩ ∧ ¬ r.Addressed :=
  ⟨Machine.Reachable.foldl (.of_init ⟨_, _, rfl⟩) (by decide), by decide⟩

/-- A dequeue is left while it waits for its message, and forgotten. -/
def forgotten : List Action :=
  [.call .dequeue "a", .ask, .read, .arrive 0, .take, .send, .interrupt, .ask, .read, .arrive 0, .take, .send, .answered]

theorem forgotten_addressed : (forgotten.foldl (lookups allThere ⟨2, 20⟩).step twoQueues).asked.length = 2 ∧
    ∀ r ∈ (forgotten.foldl (lookups allThere ⟨2, 20⟩).step twoQueues).asked, r.Addressed := by
  have hinit : ((lookups allThere ⟨2, 20⟩).restrict Orderly).Reachable twoQueues := .of_init ⟨_, _, rfl⟩
  have hadmits : ((lookups allThere ⟨2, 20⟩).restrict Orderly).AdmitsAll twoQueues forgotten := by decide
  exact ⟨by decide, addressed_of_reachable (hinit.foldl hadmits)⟩

end Examples

end Lookups

end Broker

end Casual.Queue
