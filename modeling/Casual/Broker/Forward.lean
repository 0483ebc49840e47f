/-
`broker/source/forward/cache.cpp`: the forward cache, which looks up the services of the calls it gets
and passes the calls on. What becomes of a call.
-/
import Casual.Lib.Run
import Casual.Server.Handle

namespace Casual.Forward

open Casual.Lib Casual.Call Casual.Server

/-! ## The cache -/

/-- What a queue does when a message is sent to it. -/
inductive Destination
  | accepting
  | full
  | gone
  deriving DecidableEq, Repr

/-- What the forward cache sends. -/
inductive Message
  | call (request : Server.Request)
  | reply (reply : Reply)
  deriving DecidableEq

/-- A message and the queue it is sent to; `origin` is the call it is for, which no code reads. -/
structure Outgoing where
  queue : Nat
  message : Message
  origin : Server.Request
  deriving DecidableEq

/-- What happens to messages, in its order; no code reads it. -/
inductive Happening
  /-- A call is received. -/
  | received (call : Server.Request)
  /-- A queue takes a message. -/
  | sent (outgoing : Outgoing)
  /-- A message is given up, as its queue is not there. -/
  | dropped (outgoing : Outgoing)
  /-- A call that wants no reply fails. -/
  | silent (call : Server.Request)
  deriving DecidableEq

/-- `State`, and what was sent to the broker; `running` until `start` is left. -/
structure State where
  reqested : List (String × List Server.Request)
  pending : List Outgoing
  lookups : List String
  running : Bool
  log : List Happening

namespace State

/-- `reqested[ name]`. -/
def queue (name : String) : List (String × List Server.Request) → List Server.Request
  | [] => []
  | entry :: entries => if entry.1 = name then entry.2 else queue name entries

/-- The calls that wait for a service are others. -/
def setQueue (name : String) (calls : List Server.Request) : List (String × List Server.Request) → List (String × List Server.Request)
  | [] => [(name, calls)]
  | entry :: entries => if entry.1 = name then (name, calls) :: entries else entry :: setQueue name calls entries

end State

/-! ## Handlers -/

/-- The reply that a caller gets when its call cannot be forwarded. -/
def errorReply (message : Server.Request) : Reply where
  correlation := message.correlation
  descriptor := message.descriptor
  error := TPESVCERR
  code := 0
  buffer := nullPayload
  transaction := ⟨message.trid, .active⟩

/-- `send::error::reply`. -/
def sendErrorReply (caller : Destination) (message origin : Server.Request) (s : State) : State :=
  if flag TPNOREPLY message.flags then { s with log := s.log ++ [.silent origin] }
  else
    let outgoing : Outgoing := ⟨message.process.queue, .reply (errorReply message), origin⟩
    match caller with
    | .accepting => { s with log := s.log ++ [.sent outgoing] }
    | .full => { s with pending := s.pending ++ [outgoing] }
    | .gone => { s with log := s.log ++ [.dropped outgoing] }

/-- `name::Lookup`: what the queues of the instance and the caller do, when something is sent there. -/
def lookup (instance_ caller : Destination) (message : LookupReply) (s : State) : State :=
  match message.state with
  | .busy => s
  | _ =>
    match State.queue message.service.name s.reqested with
    | [] => { s with reqested := State.setQueue message.service.name [] s.reqested }
    | front :: rest =>
      let s := { s with reqested := State.setQueue message.service.name rest s.reqested }
      let request := { front with service := message.service }
      if message.state = .absent then sendErrorReply caller request front s
      else
        let outgoing : Outgoing := ⟨message.process.queue, .call request, front⟩
        match instance_ with
        | .accepting => { s with log := s.log ++ [.sent outgoing] }
        | .full => { s with pending := s.pending ++ [outgoing] }
        | .gone => sendErrorReply caller request front s

/-- `service::Call`; an exception of the blocking send leaves `start`. -/
def call (broker : Destination) (message : Server.Request) (s : State) : State :=
  if broker = .gone then { s with running := false }
  else
    { s with
      lookups := s.lookups ++ [message.service.name]
      reqested := State.setQueue message.service.name (State.queue message.service.name s.reqested ++ [message]) s.reqested
      log := s.log ++ [.received message] }

/-- What is received, with what the queues do while it is handled. -/
inductive Arrival
  | lookup (instance_ caller : Destination) (message : LookupReply)
  | call (broker : Destination) (message : Server.Request)
  | shutdown
  | unrecognized
  deriving DecidableEq

/-- The handler of `start`, and whether it handled the message. -/
def handler : Arrival → State → Bool × State
  | .lookup instance_ caller message, s => (true, lookup instance_ caller message s)
  | .call broker message, s => (true, call broker message s)
  | .shutdown, s => (true, { s with running := false })
  | .unrecognized, s => (false, s)

/-! ## The pump -/

/-- `pending::sender` over what is pending: the messages of full queues remain. -/
def sendPending : List Outgoing → (Nat → Destination) → List Outgoing × List Happening
  | [], _ => ([], [])
  | outgoing :: pending, destination =>
    let (remain, log) := sendPending pending fun i => destination (i + 1)
    match destination 0 with
    | .accepting => (remain, .sent outgoing :: log)
    | .full => (outgoing :: remain, log)
    -- `pending::send` takes a message of an unavailable queue as sent
    | .gone => (remain, .dropped outgoing :: log)

/-- The pending replies are tried, in their order. -/
def retry (destination : Nat → Destination) (s : State) : State :=
  let (remain, log) := sendPending s.pending destination
  { s with pending := remain, log := s.log ++ log }

/-- `platform::batch::transaction`. -/
def batch : Nat := 100

/-- The messages there are, one after the other. -/
def consume : List Arrival → State → State
  | [], s => s
  | arrival :: arrivals, s =>
    let (handled, s) := handler arrival s
    if s.running && handled && decide (s.pending.length < batch) then consume arrivals s else s

/-- An iteration of `start`: what the queues of the pending messages do, and the messages that arrive. -/
structure Iteration where
  retries : Nat → Destination
  arrivals : List Arrival

/-- A turn of the pump. -/
def iterate (s : State) (i : Iteration) : State :=
  if s.pending = [] then
    match i.arrivals with
    -- it waits for one
    | [] => s
    | arrival :: _ => (handler arrival s).2
  else consume i.arrivals (retry i.retries s)

/-- The runs of a forward cache from its start. -/
def machine : Machine State Iteration where
  init s := s = ⟨[], [], [], true, []⟩
  admits s _ := s.running
  step := iterate

/-! ## What becomes of calls -/

/-- What a happening is the end of. -/
def Happening.fate : Happening → Option Server.Request
  | received _ => none
  | sent outgoing => some outgoing.origin
  | dropped outgoing => some outgoing.origin
  | silent call => some call

/-- The call that has arrived. -/
def Happening.arrival : Happening → Option Server.Request
  | received call => some call
  | _ => none

namespace State

/-- The calls that have arrived. -/
def received (s : State) : List Server.Request := s.log.filterMap Happening.arrival

/-- The calls that wait for their lookups. -/
def waiting (s : State) : List Server.Request := s.reqested.flatMap Prod.snd

/-- The calls that are done with, each as often as something is the end of it. -/
def settled (s : State) : List Server.Request := s.log.filterMap Happening.fate

end State

/-- A call is passed on as it is, but for what the lookup says about the service; or its caller is told. -/
def Outgoing.Right (o : Outgoing) : Prop :=
  match o.message with
  | .call request => ∃ service, request = { o.origin with service }
  | .reply reply => reply = errorReply o.origin ∧ o.queue = o.origin.process.queue ∧ flag TPNOREPLY o.origin.flags = false

/-- What is sent is a call. -/
def Outgoing.isCall (o : Outgoing) : Bool :=
  match o.message with
  | .call _ => true
  | .reply _ => false

/-- What is sent is a call whose caller waits for its reply. -/
def Outgoing.wanted (o : Outgoing) : Bool := o.isCall && !flag TPNOREPLY o.origin.flags

/-- What happens is what should; only calls that want no reply fail in silence. -/
def Happening.Fair : Happening → Prop
  | received _ => True
  | sent outgoing => outgoing.Right
  | dropped outgoing => outgoing.Right
  | silent call => flag TPNOREPLY call.flags = true

/-- Every call that was received waits, is pending, or has come to one end; or it is in hand. -/
structure State.Conserved (inHand : List Server.Request) (s : State) : Prop where
  once : ∀ call, s.received.count call =
    s.waiting.count call + (s.pending.map Outgoing.origin).count call + s.settled.count call + inHand.count call
  right : ∀ o ∈ s.pending, o.Right
  fair : ∀ h ∈ s.log, h.Fair

/-- What a call ends with: it is passed on, its caller is told (or is not there to be told), or it wants no reply. -/
def Happening.Proper : Happening → Prop
  | received _ => False
  | sent outgoing => outgoing.Right
  | dropped outgoing => outgoing.Right ∧ outgoing.wanted = false
  | silent call => flag TPNOREPLY call.flags = true

/-- What has been the end of a call. -/
def State.ends (s : State) (call : Server.Request) : List Happening := s.log.filter fun h => h.fate = some call

/-- A call is given up whose caller waits for its reply. -/
def Happening.givesUp : Happening → Bool
  | dropped outgoing => outgoing.wanted
  | _ => false

/-- No call has been given up whose caller waits for its reply. -/
def State.Faithful (s : State) : Prop := ∀ h ∈ s.log, h.givesUp = false

/-- No call whose caller waits for its reply is tried again while its instance's queue is gone. -/
def Retried (s : State) (i : Iteration) : Prop :=
  ∀ o ∈ s.pending.zipIdx, o.1.wanted = true → i.retries o.2 ≠ .gone

/-! ### Queues of calls -/

theorem count_setQueue (call : Server.Request) (name : String) (calls : List Server.Request) :
    ∀ l : List (String × List Server.Request),
      ((State.setQueue name calls l).flatMap Prod.snd).count call + (State.queue name l).count call =
        (l.flatMap Prod.snd).count call + calls.count call
  | [] => by simp [State.setQueue, State.queue]
  | entry :: entries => by
    have ih := count_setQueue call name calls entries
    unfold State.setQueue State.queue
    split_ifs
    · simp only [List.flatMap_cons, List.count_append]
      omega
    · simp only [List.flatMap_cons, List.count_append]
      omega

/-! ### Handlers -/

namespace State.Conserved

variable {s : State} {inHand : List Server.Request} {origin : Server.Request}

/-- A call that is in hand comes to an end. -/
theorem finish (h : s.Conserved [origin]) {happening : Happening} (hfate : happening.fate = some origin)
    (harrival : happening.arrival = none) (hfair : happening.Fair) : Conserved [] { s with log := s.log ++ [happening] } := by
  refine ⟨fun call => ?_, h.right, fun h' hmem => ?_⟩
  · have honce := h.once call
    show ((s.log ++ [happening]).filterMap Happening.arrival).count call =
      s.waiting.count call + (s.pending.map Outgoing.origin).count call +
        ((s.log ++ [happening]).filterMap Happening.fate).count call + 0
    rw [List.filterMap_append, List.filterMap_append, List.filterMap_cons_none harrival, List.filterMap_cons_some hfate,
      List.filterMap_nil, List.filterMap_nil, List.append_nil, List.count_append]
    unfold received settled at honce
    omega
  · rcases List.mem_append.1 hmem with hmem | hmem
    · exact h.fair h' hmem
    · rw [List.mem_singleton.1 hmem]
      exact hfair

/-- A call that is in hand is put off. -/
theorem putOff (h : s.Conserved [origin]) {o : Outgoing} (horigin : o.origin = origin) (hright : o.Right) :
    Conserved [] { s with pending := s.pending ++ [o] } := by
  refine ⟨fun call => ?_, fun o' hmem => ?_, h.fair⟩
  · have honce := h.once call
    show s.received.count call =
      s.waiting.count call + ((s.pending ++ [o]).map Outgoing.origin).count call + s.settled.count call + 0
    rw [List.map_append, List.count_append, List.map_singleton, horigin]
    omega
  · rcases List.mem_append.1 hmem with hmem | hmem
    · exact h.right o' hmem
    · rw [List.mem_singleton.1 hmem]
      exact hright

theorem sendErrorReply (h : s.Conserved [origin]) (caller : Destination) (service : Service) :
    (Forward.sendErrorReply caller { origin with service } origin s).Conserved [] := by
  unfold Forward.sendErrorReply
  split_ifs with hflag
  · exact h.finish rfl rfl hflag
  · have hright : Outgoing.Right ⟨origin.process.queue, .reply (errorReply origin), origin⟩ :=
      ⟨rfl, rfl, Bool.eq_false_iff.2 hflag⟩
    cases caller with
    | accepting => exact h.finish rfl rfl hright
    | full => exact h.putOff rfl hright
    | gone => exact h.finish rfl rfl hright

theorem lookup (h : s.Conserved []) (instance_ caller : Destination) (message : LookupReply) :
    (Forward.lookup instance_ caller message s).Conserved [] := by
  unfold Forward.lookup
  cases hqueue : State.queue message.service.name s.reqested with
  | nil =>
    have hsame : Conserved [] { s with reqested := State.setQueue message.service.name [] s.reqested } := by
      refine ⟨fun call => ?_, h.right, h.fair⟩
      have honce := h.once call
      have hcount := count_setQueue call message.service.name [] s.reqested
      rw [hqueue] at hcount
      show s.received.count call = ((State.setQueue message.service.name [] s.reqested).flatMap Prod.snd).count call +
        (s.pending.map Outgoing.origin).count call + s.settled.count call + 0
      unfold waiting at honce
      simp only [List.count_nil] at hcount honce
      omega
    cases message.state with
    | busy => exact h
    | absent => exact hsame
    | idle => exact hsame
  | cons front rest =>
    have htaken : Conserved [front] { s with reqested := State.setQueue message.service.name rest s.reqested } := by
      refine ⟨fun call => ?_, h.right, h.fair⟩
      have honce := h.once call
      have hcount := count_setQueue call message.service.name rest s.reqested
      rw [hqueue, List.count_cons] at hcount
      show s.received.count call = ((State.setQueue message.service.name rest s.reqested).flatMap Prod.snd).count call +
        (s.pending.map Outgoing.origin).count call + s.settled.count call + [front].count call
      unfold waiting at honce
      rw [List.count_singleton]
      simp only [List.count_nil] at honce
      omega
    have hright : Outgoing.Right ⟨message.process.queue, .call { front with service := message.service }, front⟩ :=
      ⟨message.service, rfl⟩
    cases hstate : message.state with
    | busy => exact h
    | absent => exact htaken.sendErrorReply caller message.service
    | idle =>
      cases instance_ with
      | accepting => exact htaken.finish rfl rfl hright
      | full => exact htaken.putOff rfl hright
      | gone => exact htaken.sendErrorReply caller message.service

theorem call (h : s.Conserved []) (broker : Destination) (message : Server.Request) :
    (Forward.call broker message s).Conserved [] := by
  unfold Forward.call
  split_ifs
  · exact ⟨h.once, h.right, h.fair⟩
  · refine ⟨fun call => ?_, h.right, fun h' hmem => ?_⟩
    · have honce := h.once call
      have hcount := count_setQueue call message.service.name (State.queue message.service.name s.reqested ++ [message]) s.reqested
      rw [List.count_append] at hcount
      show ((s.log ++ [Happening.received message]).filterMap Happening.arrival).count call =
        ((State.setQueue message.service.name (State.queue message.service.name s.reqested ++ [message]) s.reqested).flatMap
          Prod.snd).count call + (s.pending.map Outgoing.origin).count call +
            ((s.log ++ [Happening.received message]).filterMap Happening.fate).count call + 0
      rw [List.filterMap_append, List.filterMap_append, List.count_append, List.count_append]
      show _ + [message].count call = _ + (_ + 0) + 0
      unfold received waiting settled at honce
      simp only [List.count_nil] at honce
      omega
    · rcases List.mem_append.1 hmem with hmem | hmem
      · exact h.fair h' hmem
      · rw [List.mem_singleton.1 hmem]
        trivial

theorem handler (h : s.Conserved []) (arrival : Arrival) : (Forward.handler arrival s).2.Conserved [] := by
  cases arrival with
  | lookup instance_ caller message => exact h.lookup instance_ caller message
  | call broker message => exact h.call broker message
  | shutdown => exact ⟨h.once, h.right, h.fair⟩
  | unrecognized => exact h

theorem consume : ∀ {arrivals : List Arrival} {s : State}, s.Conserved [] → (Forward.consume arrivals s).Conserved []
  | [], _, h => h
  | arrival :: arrivals, s, h => by
    have hstep := h.handler arrival
    unfold Forward.consume
    simp only
    split_ifs
    · exact consume hstep
    · exact hstep

end State.Conserved

/-! ### What is pending -/

/-- A message that is tried again is taken, given up or remains. -/
theorem sendPending_spec : ∀ (pending : List Outgoing) (destination : Nat → Destination),
    (∀ call, (pending.map Outgoing.origin).count call = ((sendPending pending destination).1.map Outgoing.origin).count call +
      ((sendPending pending destination).2.filterMap Happening.fate).count call) ∧
    (sendPending pending destination).2.filterMap Happening.arrival = [] ∧
    (∀ o ∈ (sendPending pending destination).1, o ∈ pending) ∧
    ∀ h ∈ (sendPending pending destination).2, ∃ o i, (o, i) ∈ pending.zipIdx ∧
      (h = .sent o ∨ h = .dropped o ∧ destination i = .gone)
  | [], _ => ⟨fun _ => rfl, rfl, List.forall_mem_nil _, List.forall_mem_nil _⟩
  | outgoing :: pending, destination => by
    obtain ⟨honce, harrival, hremain, hlog⟩ := sendPending_spec pending fun i => destination (i + 1)
    have hfirst : (outgoing, 0) ∈ (outgoing :: pending).zipIdx := by simp
    have hrest : ∀ h ∈ (sendPending pending fun i => destination (i + 1)).2, ∃ o i, (o, i) ∈ (outgoing :: pending).zipIdx ∧
        (h = .sent o ∨ h = .dropped o ∧ destination i = .gone) := by
      intro h hmem
      obtain ⟨o, i, ho, hend⟩ := hlog h hmem
      refine ⟨o, i + 1, ?_, hend⟩
      rw [List.zipIdx_cons, List.zipIdx_succ]
      exact List.mem_cons_of_mem _ (List.mem_map.2 ⟨(o, i), ho, rfl⟩)
    unfold sendPending
    cases hd : destination 0 with
    | accepting =>
      refine ⟨fun call => ?_, harrival, fun o ho => List.mem_cons_of_mem _ (hremain o ho), fun h hmem => ?_⟩
      · have h := honce call
        simp only [List.map_cons, List.count_cons, Happening.fate, List.filterMap_cons] at h ⊢
        omega
      · rcases List.mem_cons.1 hmem with rfl | hmem
        · exact ⟨outgoing, 0, hfirst, .inl rfl⟩
        · exact hrest h hmem
    | full =>
      refine ⟨fun call => ?_, harrival, fun o ho => ?_, hrest⟩
      · have h := honce call
        simp only [List.map_cons, List.count_cons] at h ⊢
        omega
      · rcases List.mem_cons.1 ho with rfl | ho
        · exact List.mem_cons_self
        · exact List.mem_cons_of_mem _ (hremain o ho)
    | gone =>
      refine ⟨fun call => ?_, harrival, fun o ho => List.mem_cons_of_mem _ (hremain o ho), fun h hmem => ?_⟩
      · have h := honce call
        simp only [List.map_cons, List.count_cons, Happening.fate, List.filterMap_cons] at h ⊢
        omega
      · rcases List.mem_cons.1 hmem with rfl | hmem
        · exact ⟨outgoing, 0, hfirst, .inr ⟨rfl, hd⟩⟩
        · exact hrest h hmem

theorem State.Conserved.retry {s : State} (h : s.Conserved []) (destination : Nat → Destination) :
    (Forward.retry destination s).Conserved [] := by
  obtain ⟨honce, harrival, hremain, hlog⟩ := sendPending_spec s.pending destination
  refine ⟨fun call => ?_, fun o ho => h.right o (hremain o ho), fun h' hmem => ?_⟩
  · have hbefore := h.once call
    have hsent := honce call
    show ((s.log ++ (sendPending s.pending destination).2).filterMap Happening.arrival).count call =
      s.waiting.count call + ((sendPending s.pending destination).1.map Outgoing.origin).count call +
        ((s.log ++ (sendPending s.pending destination).2).filterMap Happening.fate).count call + 0
    rw [List.filterMap_append, List.filterMap_append, harrival, List.append_nil, List.count_append]
    unfold State.received State.settled at hbefore
    simp only [List.count_nil] at hbefore
    omega
  · rcases List.mem_append.1 hmem with hmem | hmem
    · exact h.fair h' hmem
    · obtain ⟨o, i, ho, rfl | ⟨rfl, -⟩⟩ := hlog h' hmem
      · exact h.right o (List.fst_mem_of_mem_zipIdx ho)
      · exact h.right o (List.fst_mem_of_mem_zipIdx ho)

theorem State.Conserved.iterate {s : State} (h : s.Conserved []) (i : Iteration) : (Forward.iterate s i).Conserved [] := by
  unfold Forward.iterate
  split_ifs
  · cases i.arrivals with
    | nil => exact h
    | cons arrival _ => exact h.handler arrival
  · exact (h.retry i.retries).consume

/-- Whatever comes, every call that was received waits, is pending, or has come to one end. -/
theorem reachable_conserved {s : State} (h : machine.Reachable s) : s.Conserved [] := by
  refine h.invariant ?_ fun s i hs _ => hs.iterate i
  rintro s rfl
  exact ⟨fun _ => rfl, List.forall_mem_nil _, List.forall_mem_nil _⟩

/-! ### Calls that are tried again -/

namespace State.Faithful

variable {s : State}

theorem concat (h : s.Faithful) {happening : Happening} (hnot : happening.givesUp = false) :
    Faithful { s with log := s.log ++ [happening] } := by
  intro happening' hmem
  rcases List.mem_append.1 hmem with hmem | hmem
  · exact h happening' hmem
  · rw [List.mem_singleton.1 hmem]
    exact hnot

theorem sendErrorReply (h : s.Faithful) (caller : Destination) (message origin : Server.Request) :
    (Forward.sendErrorReply caller message origin s).Faithful := by
  unfold Forward.sendErrorReply
  split_ifs
  · exact h.concat rfl
  · cases caller with
    | accepting => exact h.concat rfl
    | full => exact h
    | gone => exact h.concat rfl

theorem handler (h : s.Faithful) (arrival : Arrival) : (Forward.handler arrival s).2.Faithful := by
  cases arrival with
  | lookup instance_ caller message =>
    show (Forward.lookup instance_ caller message s).Faithful
    unfold Forward.lookup
    cases State.queue message.service.name s.reqested with
    | nil => cases message.state <;> exact h
    | cons front rest =>
      have htaken : Faithful { s with reqested := State.setQueue message.service.name rest s.reqested } := h
      cases message.state with
      | busy => exact h
      | absent => exact htaken.sendErrorReply caller _ front
      | idle =>
        cases instance_ with
        | accepting => exact htaken.concat rfl
        | full => exact h
        | gone => exact htaken.sendErrorReply caller _ front
  | call broker message =>
    show (Forward.call broker message s).Faithful
    unfold Forward.call
    split_ifs
    · exact h
    · exact h.concat rfl
  | shutdown => exact h
  | unrecognized => exact h

theorem consume : ∀ {arrivals : List Arrival} {s : State}, s.Faithful → (Forward.consume arrivals s).Faithful
  | [], _, h => h
  | arrival :: arrivals, s, h => by
    have hstep := h.handler arrival
    unfold Forward.consume
    simp only
    split_ifs
    · exact consume hstep
    · exact hstep

theorem iterate (h : s.Faithful) {i : Iteration} (hi : Retried s i) : (Forward.iterate s i).Faithful := by
  have hretry : (Forward.retry i.retries s).Faithful := by
    intro happening hmem
    rcases List.mem_append.1 hmem with hmem | hmem
    · exact h happening hmem
    · obtain ⟨o, n, ho, rfl | ⟨rfl, hgone⟩⟩ := (sendPending_spec s.pending i.retries).2.2.2 _ hmem
      · rfl
      · show o.wanted = false
        by_contra hcall
        exact hi (o, n) ho (Bool.not_eq_false _ ▸ hcall) hgone
  unfold Forward.iterate
  split_ifs
  · cases i.arrivals with
    | nil => exact h
    | cons arrival _ => exact h.handler arrival
  · exact hretry.consume

end State.Faithful

theorem count_settled (s : State) (call : Server.Request) : s.settled.count call = (s.ends call).length := by
  unfold State.settled State.ends
  induction s.log with
  | nil => rfl
  | cons h log ih =>
    rw [List.filter_cons]
    cases hfate : h.fate with
    | none =>
      rw [List.filterMap_cons_none hfate, ih]
      rfl
    | some c =>
      rw [List.filterMap_cons_some hfate, List.count_cons, ih]
      by_cases hc : c = call
      · subst hc
        simp
      · have hne : some c ≠ some call := fun heq => hc (Option.some.inj heq)
        simp [hc]

/-- Every call that was received waits for its lookup, is pending or has ended, each in one way and properly. -/
theorem settled_of_reachable {s : State} (h : (machine.restrict Retried).Reachable s) (call : Server.Request) :
    s.received.count call = s.waiting.count call + (s.pending.map Outgoing.origin).count call + (s.ends call).length ∧
      ∀ happening ∈ s.ends call, happening.Proper := by
  have hboth : s.Conserved [] ∧ s.Faithful := by
    refine h.invariant (I := fun s => s.Conserved [] ∧ s.Faithful) ?_ ?_
    · rintro s rfl
      exact ⟨⟨fun _ => rfl, List.forall_mem_nil _, List.forall_mem_nil _⟩, List.forall_mem_nil _⟩
    · rintro s i ⟨hconserved, hfaithful⟩ ⟨-, hi⟩
      exact ⟨hconserved.iterate i, hfaithful.iterate hi⟩
  obtain ⟨hconserved, hfaithful⟩ := hboth
  constructor
  · have honce := hconserved.once call
    rw [count_settled] at honce
    exact honce
  · intro happening hmem
    obtain ⟨hlog, hfate⟩ := List.mem_filter.1 hmem
    have hfair := hconserved.fair happening hlog
    cases happening with
    | received c => cases hfate
    | sent o => exact hfair
    | dropped o => exact ⟨hfair, hfaithful _ hlog⟩
    | silent c => exact hfair

instance (s : State) (i : Iteration) : Decidable (Retried s i) := inferInstanceAs (Decidable (∀ _ ∈ _, _))

/-! ### Two runs -/

/-- A call of a service. -/
def callOf (correlation : Communication.Uuid) : Server.Request :=
  ⟨correlation, "", 1, ⟨10, 10⟩, ⟨"a", []⟩, none, 0, ⟨"X_OCTET", []⟩⟩

/-- The service is answered with an instance, whose queue is full; then the call is tried again. -/
def again (retry : Destination) : List Iteration :=
  [⟨fun _ => .full, [.call .accepting (callOf 1)]⟩, ⟨fun _ => .full, [.lookup .full .accepting ⟨⟨"a", []⟩, ⟨20, 20⟩, .idle⟩]⟩,
    ⟨fun _ => retry, []⟩]

/-- What the iterations make of a cache that starts. -/
def after (iterations : List Iteration) : State := iterations.foldl machine.step ⟨[], [], [], true, []⟩

theorem again_settled : (after (again .accepting)).received.count (callOf 1) =
      (after (again .accepting)).waiting.count (callOf 1) + ((after (again .accepting)).pending.map Outgoing.origin).count (callOf 1) +
        ((after (again .accepting)).ends (callOf 1)).length ∧
    ∀ happening ∈ (after (again .accepting)).ends (callOf 1), happening.Proper := by
  have hall : (machine.restrict Retried).AdmitsAll ⟨[], [], [], true, []⟩ (again .accepting) := by
    refine ⟨⟨rfl, ?_⟩, ⟨rfl, ?_⟩, ⟨rfl, ?_⟩, trivial⟩
    · exact List.forall_mem_nil _
    · exact List.forall_mem_nil _
    · intro o _ _ hgone
      cases hgone
  have hreach : (machine.restrict Retried).Reachable (after (again .accepting)) := Machine.Reachable.foldl (.of_init rfl) hall
  exact settled_of_reachable hreach (callOf 1)

/-- The instance's queue is gone when the call is tried again: the call is neither passed on nor answered. -/
theorem again_lost : ∃ s call, machine.Reachable s ∧ s.received.count call = 1 ∧ flag TPNOREPLY call.flags = false ∧ s.waiting = [] ∧
    s.pending = [] ∧ (∀ o, .sent o ∉ s.log) ∧ ¬ ∀ happening ∈ s.ends call, happening.Proper := by
  have hreach : machine.Reachable (after (again .gone)) := Machine.Reachable.foldl (.of_init rfl) ⟨rfl, rfl, rfl, trivial⟩
  have hlog : (after (again .gone)).log =
      [.received (callOf 1), .dropped ⟨20, .call (callOf 1), callOf 1⟩] := by decide
  refine ⟨_, callOf 1, hreach, by decide, by decide, by decide, by decide, fun o hmem => ?_, fun h => ?_⟩
  · rw [hlog] at hmem
    simp at hmem
  · have hmem : .dropped ⟨20, .call (callOf 1), callOf 1⟩ ∈ (after (again .gone)).ends (callOf 1) := by decide
    have hproper := (h _ hmem).2
    cases hproper

end Casual.Forward
