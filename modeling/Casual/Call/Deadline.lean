/-
`common/timeout.cpp`, and what `common/call/state.cpp` and `common/call/context.cpp` do with timeouts: the
deadline a caller waits under, and the timeout in the request that is sent.
-/
import Casual.Lib.Run
import Casual.Call.Traces

namespace Casual.Call

open Lib Common Communication

/-- The call has no timeout of its own. -/
def TPNOTIME : Flags := 0x20

/-! ## Timeouts -/

/-- `platform::time_point`, in nanoseconds; `⊤` is `time_point::max()`. -/
abbrev TimePoint := WithTop Int

instance : DecidableLT TimePoint := @WithTop.decidableLT Int _ Int.decLt

/-- `Timeout`; `timeout` is in microseconds. -/
structure Timeout where
  start : Int
  timeout : Int
  deriving DecidableEq

namespace Timeout

/-- `Timeout()`. -/
def initial : Timeout := ⟨-2 ^ 63, 0⟩

/-- `set`. -/
def set (_ : Timeout) (start timeout : Int) : Timeout := ⟨start, timeout⟩

/-- `deadline`. -/
def deadline (t : Timeout) : TimePoint := if t.timeout = 0 then ⊤ else ((t.start + 1000 * t.timeout : Int) : TimePoint)

end Timeout

/-- `duration_cast< microseconds>`: towards zero. -/
def microseconds (duration : Int) : Int := duration.tdiv 1000

namespace Timed

variable {Sender : Type}

/-! ## A process with its timeouts -/

/-- A process, the `timeout` of each of its descriptors, and `timout` of its current transaction. `message`
is `service.timeout` of the request that is prepared; `waited` and `carried` are the deadlines that were
set and the timeouts in the requests that were sent. -/
structure Context (Sender : Type) where
  base : Call.Context Sender
  timeouts : Nat → Timeout
  timout : Timeout
  message : Int
  waited : List TimePoint
  carried : List Int

/-- What a caller with deadlines does to its context. -/
abbrev M (Sender : Type) := EStateM Exception (Context Sender)

/-- What does not use a timeout. -/
def untimed {α : Type} (x : Call.M Sender α) : M Sender α := fun s =>
  match x s.base with
  | .ok a base => .ok a { s with base }
  | .error e base => .error e { s with base }

/-- `State::Pending::reserve`: a descriptor that is used again keeps its start. -/
def reserve (pending : Pending) (timeouts : Nat → Timeout) : Nat → Timeout :=
  match pending.descriptors.find? (!·.active) with
  | some found => Function.update timeouts found.descriptor { timeouts found.descriptor with timeout := 0 }
  | none => Function.update timeouts ((pending.descriptors.getLast pending.nonempty).descriptor + 1) .initial

/-- What `prepare::message` makes of the timeout of the descriptor that was reserved. A deadline that is
earlier than another is not `max`. -/
def prepareTimeout (flags : Flags) (start timeout : Int) (trid : Option Transaction.ID) (timout reserved : Timeout) :
    Timeout :=
  let reserved := if flag TPNOTIME flags then reserved else reserved.set start timeout
  if trid.isSome ∧ timout.deadline < reserved.deadline then
    reserved.set start (microseconds (timout.deadline.untopD 0 - start))
  else reserved

/-- `State::Pending::deadline`, of a descriptor that is active or null. -/
def Context.deadline (s : Context Sender) (descriptor : Nat) : TimePoint :=
  if descriptor = 0 then ⊤ else (s.timeouts descriptor).deadline

/-- `deadline`, and the timer is set. -/
def wait (descriptor : Nat) : M Sender Unit := do
  untimed (Call.deadline descriptor)
  modify fun s => { s with waited := s.waited ++ [s.deadline descriptor] }

section Operations

variable [DecidableEq Sender] (env : Surroundings)

/-- `prepare::message`. `timeout` is that of the service. -/
def prepareMessage (correlation : Uuid) (start : Int) (input : Payload) (flags : Flags) (service : Service)
    (timeout : Int) : M Sender Request := do
  let before ← get
  let request ← untimed (Call.prepareMessage env correlation input flags service)
  modify fun s => { s with message := timeout }
  if flag TPNOREPLY flags then return request
  else
    modify fun s =>
      let timeouts := reserve before.base.pending s.timeouts
      let prepared := prepareTimeout flags start timeout request.trid s.timout (timeouts request.descriptor)
      { s with timeouts := Function.update timeouts request.descriptor prepared, message := prepared.timeout }
    return request

/-- `blocking::send` of the request. -/
def sendRequest (queue : Nat) (request : Request) : M Sender Unit := do
  untimed (send env (.call queue request))
  modify fun s => { s with carried := s.carried ++ [s.message] }

/-- `async`, from where the service has been found. -/
def asyncFound (correlation : Uuid) (start : Int) (input : Payload) (flags : Flags) (timeout : Int)
    (target : LookupReply) : M Sender Nat := do
  let message ← prepareMessage env correlation start input flags target.service timeout
  onError (do
    let target ← onError (do
        wait message.descriptor
        if target.state = .busy then untimed (lookupReply env) else return target)
      (untimed (send env (.ack target.process target.service.name)))
    modify fun s => { s with message := timeout }
    onError (sendRequest env target.process.queue { message with service := target.service })
      (untimed (send env (.ack target.process target.service.name))))
    (untimed (unreserve message.descriptor))
  return message.descriptor

/-- `async`. The broker has one timeout for a service, which both answers to a lookup tell. -/
def async (lookupCorrelation correlation : Uuid) (start : Int) (service : String) (input : Payload) (flags : Flags)
    (timeout : Int) : M Sender Nat := do
  let context ← untimed (validateInput flags)
  untimed (lookup env lookupCorrelation service context)
  onExit (do
    untimed (attempt env .other)
    let target ← untimed (lookupReply env)
    if target.state = .absent then throw .noEntry
    else asyncFound env correlation start input flags timeout target)
    (untimed lookupDone)

/-- `reply`. -/
def reply (descriptor : Nat) (output : Option Payload) (flags : Flags) : M Sender Reply := do
  wait (if flag TPGETANY flags then 0 else descriptor)
  untimed (Call.reply env descriptor output flags)

end Operations

/-! ## What a call should wait under -/

/-- When a timeout that starts at `start` expires; zero is none. -/
def expiry (start timeout : Int) : TimePoint :=
  if timeout = 0 then ⊤ else ((start + 1000 * timeout : Int) : TimePoint)

/-- Whether a call takes part in the current transaction. -/
def takesPart (flags : Flags) (s : Context Sender) : Bool :=
  !flag TPNOTRAN flags && (s.base.transactions.getLast?.bind (·.trid)).isSome

/-- The deadline of the transaction that a call takes part in. -/
def transactionDeadline (flags : Flags) (s : Context Sender) : TimePoint :=
  if takesPart flags s then s.timout.deadline else ⊤

/-- The deadline that the timeout of the service gives a call. -/
def serviceDeadline (flags : Flags) (start timeout : Int) : TimePoint :=
  if flag TPNOTIME flags then ⊤ else expiry start timeout

/-- The earlier of the service's timeout and the deadline of the transaction. -/
def effective (flags : Flags) (start timeout : Int) (s : Context Sender) : TimePoint :=
  min (serviceDeadline flags start timeout) (transactionDeadline flags s)

/-! ## What does not touch the timeouts -/

/-- The timeouts are as before. -/
structure SameTimes (s t : Context Sender) : Prop where
  timeouts : t.timeouts = s.timeouts
  timout : t.timout = s.timout
  waited : t.waited = s.waited
  carried : t.carried = s.carried
  message : t.message = s.message

instance : Std.Refl (SameTimes : Context Sender → Context Sender → Prop) := ⟨fun _ => ⟨rfl, rfl, rfl, rfl, rfl⟩⟩

instance : IsTrans (Context Sender) SameTimes :=
  ⟨fun _ _ _ h h' => ⟨h'.timeouts.trans h.timeouts, h'.timout.trans h.timout, h'.waited.trans h.waited,
    h'.carried.trans h.carried, h'.message.trans h.message⟩⟩

theorem sameTimes_untimed {α : Type} (x : Call.M Sender α) : Moves SameTimes (untimed x) := by
  constructor
  intro s
  unfold untimed
  cases x s.base with
  | ok a base => exact ⟨rfl, rfl, rfl, rfl, rfl⟩
  | error e base => exact ⟨rfl, rfl, rfl, rfl, rfl⟩

/-- What holds of the process alone, and of the timeouts. -/
theorem untimed_triple {α : Type} {x : Call.M Sender α} {P : Call.Context Sender → Prop}
    {Q : α → Call.Context Sender → Prop} {E : Exception → Call.Context Sender → Prop} (h : Triple P x Q E)
    (s : Context Sender) :
    Triple (fun t => P t.base ∧ SameTimes s t) (untimed x) (fun a t => Q a t.base ∧ SameTimes s t)
      (fun e t => E e t.base ∧ SameTimes s t) := by
  rintro t ⟨hP, hsame⟩
  have hx := h t.base hP
  have htimes := (sameTimes_untimed x).after t
  unfold untimed at htimes ⊢
  cases hrun : x t.base with
  | ok a base =>
    rw [hrun] at hx htimes
    exact ⟨hx, Trans.trans hsame htimes⟩
  | error e base =>
    rw [hrun] at hx htimes
    exact ⟨hx, Trans.trans hsame htimes⟩

/-! ## The deadline that is computed -/

/-- What the caller waits under, when the current transaction is as it is in `s`. -/
def prepared (flags : Flags) (start timeout : Int) (s : Context Sender) : TimePoint :=
  if flag TPNOREPLY flags then ⊤
  else if transactionDeadline flags s < serviceDeadline flags start timeout then
    expiry start (microseconds ((transactionDeadline flags s).untopD 0 - start))
  else serviceDeadline flags start timeout

/-- Whatever start the descriptor was left with. -/
theorem deadline_prepareTimeout {flags : Flags} {start timeout : Int} {trid : Option Transaction.ID}
    {reserved : Timeout} {s : Context Sender} (hreserved : reserved.timeout = 0) (hreply : flag TPNOREPLY flags = false)
    (htrid : trid.isSome = takesPart flags s) :
    (prepareTimeout flags start timeout trid s.timout reserved).deadline = prepared flags start timeout s := by
  have hservice : (if flag TPNOTIME flags = true then reserved else reserved.set start timeout).deadline =
      serviceDeadline flags start timeout := by
    unfold serviceDeadline
    split_ifs
    · unfold Timeout.deadline
      rw [if_pos hreserved]
    · rfl
  unfold prepareTimeout prepared transactionDeadline
  dsimp only
  generalize (if flag TPNOTIME flags = true then reserved else reserved.set start timeout) = r at hservice
  rw [hservice, htrid, hreply, if_neg Bool.false_ne_true]
  cases takesPart flags s with
  | false => simp [hservice]
  | true =>
    simp only [true_and, if_true]
    split_ifs
    · rfl
    · exact hservice

/-- A point of time survives being made a timeout only when it is whole microseconds away, and not now. -/
theorem expiry_microseconds {start : Int} {point : TimePoint} (hpoint : point ≠ ⊤) :
    expiry start (microseconds (point.untopD 0 - start)) = point ↔
      ∃ k : Int, k ≠ 0 ∧ point = ((start + 1000 * k : Int) : TimePoint) := by
  obtain ⟨p, rfl⟩ := WithTop.ne_top_iff_exists.1 hpoint
  rw [WithTop.untopD_coe]
  constructor
  · intro h
    unfold expiry at h
    by_cases hzero : microseconds (p - start) = 0
    · rw [if_pos hzero] at h
      exact absurd h.symm hpoint
    · rw [if_neg hzero] at h
      exact ⟨_, hzero, h.symm⟩
  · rintro ⟨k, hk, heq⟩
    have hdiv : microseconds (p - start) = k := by
      rw [WithTop.coe_inj.1 heq, add_sub_cancel_left]
      exact Int.mul_tdiv_cancel_left k (by decide)
    unfold expiry
    rw [hdiv, if_neg hk, heq]

/-- When the caller waits under the deadline it should. -/
def WaitsRight (flags : Flags) (start timeout : Int) (s : Context Sender) : Prop :=
  if flag TPNOREPLY flags then serviceDeadline flags start timeout = ⊤ ∧ transactionDeadline flags s = ⊤
  else transactionDeadline flags s < serviceDeadline flags start timeout →
    ∃ k : Int, k ≠ 0 ∧ transactionDeadline flags s = ((start + 1000 * k : Int) : TimePoint)

theorem prepared_eq_iff {flags : Flags} {start timeout : Int} {s : Context Sender} :
    prepared flags start timeout s = effective flags start timeout s ↔ WaitsRight flags start timeout s := by
  unfold prepared WaitsRight
  split_ifs with hreply hlt
  · exact eq_comm.trans inf_eq_top_iff
  · have heffective : effective flags start timeout s = transactionDeadline flags s := min_eq_right hlt.le
    rw [heffective, expiry_microseconds (ne_top_of_lt hlt)]
    exact ⟨fun h _ => h, fun h => h hlt⟩
  · have heffective : effective flags start timeout s = serviceDeadline flags start timeout :=
      min_eq_left (not_lt.1 hlt)
    rw [heffective]
    exact ⟨fun _ h => absurd h hlt, fun _ => rfl⟩

/-- When the timeout of the service says what the request should. -/
def CarriesRight (flags : Flags) (start timeout : Int) (s : Context Sender) : Prop :=
  if flag TPNOTIME flags then expiry start timeout = transactionDeadline flags s
  else expiry start timeout ≤ transactionDeadline flags s

theorem expiry_eq_iff {flags : Flags} {start timeout : Int} {s : Context Sender} :
    expiry start timeout = effective flags start timeout s ↔ CarriesRight flags start timeout s := by
  unfold effective serviceDeadline CarriesRight
  split_ifs
  · rw [min_eq_right le_top]
  · rw [eq_comm, min_eq_left_iff]

/-! ## What a call does to the timeouts -/

theorem timeout_reserve (p : Pending) (timeouts : Nat → Timeout) (correlation : Uuid) :
    (reserve p timeouts (p.reserve correlation).2).timeout = 0 := by
  unfold reserve Pending.reserve
  cases p.descriptors.find? (!·.active) with
  | some found => simp
  | none => simp [Timeout.initial]

theorem reserve_of_ne {p : Pending} (timeouts : Nat → Timeout) {correlation : Uuid} {d : Nat}
    (h : d ≠ (p.reserve correlation).2) : reserve p timeouts d = timeouts d := by
  unfold Pending.reserve at h
  unfold reserve
  cases hfind : p.descriptors.find? (!·.active) with
  | some found =>
    rw [hfind] at h
    exact Function.update_of_ne h _ _
  | none =>
    rw [hfind] at h
    exact Function.update_of_ne h _ _

theorem reserve_ne_zero (p : Pending) (correlation : Uuid) : (p.reserve correlation).2 ≠ 0 := by
  unfold Pending.reserve
  cases hfind : p.descriptors.find? (!·.active) with
  | some found => exact (p.positive found (List.mem_of_find?_eq_some hfind)).ne'
  | none => exact Nat.succ_ne_zero _

/-- The timeouts of the descriptors that are active are as before. -/
def Kept (s t : Context Sender) : Prop := ∀ d ∈ s.base.pending.actives, t.timeouts d.descriptor = s.timeouts d.descriptor

theorem SameTimes.kept {s t u : Context Sender} (h : Kept s t) (h' : SameTimes t u) : Kept s u := by
  intro d hd
  rw [h'.timeouts]
  exact h d hd

/-- How far a call has come: its descriptor has the deadline, the deadlines it has set, and the timeouts it has
sent. -/
structure Progress (flags : Flags) (start timeout : Int) (s : Context Sender) (waited : List TimePoint)
    (carried : List Int) (descriptor : Nat) (t : Context Sender) : Prop where
  kept : Kept s t
  deadline : t.deadline descriptor = prepared flags start timeout s
  waited : t.waited = s.waited ++ waited
  carried : t.carried = s.carried ++ carried

theorem Progress.same {flags : Flags} {start timeout : Int} {s t u : Context Sender} {waited : List TimePoint}
    {carried : List Int} {descriptor : Nat} (h : Progress flags start timeout s waited carried descriptor t)
    (h' : SameTimes t u) : Progress flags start timeout s waited carried descriptor u := by
  refine ⟨h'.kept h.kept, ?_, h'.waited.trans h.waited, h'.carried.trans h.carried⟩
  rw [← h.deadline]
  unfold Context.deadline
  rw [h'.timeouts]

/-! ## Without the timeouts -/

section Projected

theorem projects_untimed {α : Type} (x : Call.M Sender α) : Projects Context.base (untimed x) x := by
  constructor
  intro s
  unfold untimed
  cases x s.base with
  | ok a base => rfl
  | error e base => rfl

theorem projects_wait (descriptor : Nat) :
    Projects Context.base (wait descriptor : M Sender Unit) (Call.deadline descriptor) := by
  unfold wait
  exact (projects_untimed _).before fun _ => .modify fun _ => rfl

variable (env : Surroundings)

theorem projects_prepareMessage (correlation : Uuid) (start : Int) (input : Payload) (flags : Flags) (service : Service)
    (timeout : Int) :
    Projects Context.base (prepareMessage env correlation start input flags service timeout : M Sender Request)
      (Call.prepareMessage env correlation input flags service) := by
  constructor
  intro s
  refine ((projects_untimed _).before fun request => ?_).run s
  apply Projects.behind
  · exact fun _ => rfl
  · split_ifs
    · exact .pure _
    · apply Projects.behind
      · exact fun _ => rfl
      · exact .pure _

theorem projects_sendRequest (queue : Nat) (request : Request) :
    Projects Context.base (sendRequest env queue request : M Sender Unit) (send env (.call queue request)) := by
  unfold sendRequest
  exact (projects_untimed _).before fun _ => .modify fun _ => rfl

variable [DecidableEq Sender]

theorem projects_asyncFound (correlation : Uuid) (start : Int) (input : Payload) (flags : Flags) (timeout : Int)
    (target : LookupReply) :
    Projects Context.base (asyncFound env correlation start input flags timeout target : M Sender Nat)
      (Call.asyncFound env correlation input flags target) := by
  unfold asyncFound Call.asyncFound
  apply Projects.bind (projects_prepareMessage env correlation start input flags target.service timeout)
  intro message
  apply Projects.bind
  · apply Projects.onError
    · apply Projects.bind
      · apply Projects.onError
        · apply Projects.bind (projects_wait message.descriptor)
          intro _
          exact .ite (projects_untimed _) (.pure _)
        · exact projects_untimed _
      · intro target
        apply Projects.behind
        · exact fun _ => rfl
        · exact .onError (projects_sendRequest env _ _) (projects_untimed _)
    · exact projects_untimed _
  · intro _
    exact .pure _

/-- Without the timeouts, this is how a process calls a service. -/
theorem projects_async (lookupCorrelation correlation : Uuid) (start : Int) (service : String) (input : Payload)
    (flags : Flags) (timeout : Int) :
    Projects Context.base (async env lookupCorrelation correlation start service input flags timeout : M Sender Nat)
      (Call.async env lookupCorrelation correlation service input flags) := by
  unfold async Call.async
  apply Projects.bind (projects_untimed _)
  intro context
  apply Projects.bind (projects_untimed _)
  intro _
  apply Projects.onExit
  · apply Projects.bind (projects_untimed _)
    intro _
    apply Projects.bind (projects_untimed _)
    intro target
    exact .ite (.throw _) (projects_asyncFound env correlation start input flags timeout target)
  · exact projects_untimed _

end Projected

/-! ## A call -/

section Spec

variable [DecidableEq Sender] (env : Surroundings)

/-- Nothing has happened to the timeouts, the descriptors and the transactions. -/
def Idle (s t : Context Sender) : Prop := Still s.base t.base ∧ SameTimes s t

theorem Idle.kept {s t : Context Sender} (h : Idle s t) : Kept s t := fun _ _ => by rw [h.2.timeouts]

theorem idle_untimed {α : Type} {x : Call.M Sender α} (hx : Moves Still x) (s : Context Sender) :
    Triple (Idle s) (untimed x) (fun _ => Idle s) (fun _ => Kept s) := by
  have hstill : Triple (Still s.base) x (fun _ => Still s.base) (fun _ => Still s.base) :=
    hx.triple fun _ h _ h' => Trans.trans h h'
  exact (untimed_triple hstill s).conseq (fun _ h => h) (fun _ _ h => h) fun _ _ h => Idle.kept h

/-- What is prepared without the timeouts: whether the request is part of a transaction, and its descriptor. -/
theorem prepareMessage_base (correlation : Uuid) (input : Payload) (flags : Flags) (service : Service)
    (s : Context Sender) :
    Triple (Still s.base) (Call.prepareMessage env correlation input flags service)
      (fun message t => if flag TPNOREPLY flags then message.descriptor = 0
        else message.trid.isSome = takesPart flags s ∧ message.descriptor = (s.base.pending.reserve correlation).2 ∧
          (t.pending = (s.base.pending.reserve correlation).1))
      (fun _ => Still s.base) := by
  unfold Call.prepareMessage
  apply Triple.bind
  · exact (still_attempt env _).triple fun _ h _ h' => Trans.trans h h'
  intro _
  apply Triple.ite
  · intro hreply
    apply Triple.pure
    intro t _
    rw [if_pos hreply]
  · intro hreply t ht
    have hpost : ((if flag TPNOTRAN flags then none else t.transactions.getLast?.bind (·.trid)).isSome =
        takesPart flags s) ∧ (t.pending.reserve correlation).2 = (s.base.pending.reserve correlation).2 ∧
        (t.pending.reserve correlation).1 = (s.base.pending.reserve correlation).1 := by
      refine ⟨?_, by rw [ht.pending], by rw [ht.pending]⟩
      unfold takesPart
      rw [ht.transactions]
      cases flag TPNOTRAN flags <;> rfl
    simp only [if_neg hreply]
    exact hpost

omit [DecidableEq Sender] in
theorem deadline_reserve {flags : Flags} {start timeout : Int} {correlation : Uuid} {s : Context Sender} {message : Request}
    (hreply : flag TPNOREPLY flags = false) (htrid : message.trid.isSome = takesPart flags s)
    (hdescriptor : message.descriptor = (s.base.pending.reserve correlation).2) :
    (prepareTimeout flags start timeout message.trid s.timout
      (reserve s.base.pending s.timeouts message.descriptor)).deadline = prepared flags start timeout s := by
  rw [hdescriptor]
  exact deadline_prepareTimeout (timeout_reserve s.base.pending s.timeouts correlation) hreply htrid

theorem prepareMessage_spec (correlation : Uuid) (start : Int) (input : Payload) (flags : Flags) (service : Service)
    (timeout : Int) (s : Context Sender) :
    Triple (Idle s) (prepareMessage env correlation start input flags service timeout)
      (fun message => Progress flags start timeout s [] [] message.descriptor) (fun _ => Kept s) := by
  unfold prepareMessage
  apply Triple.bind (Q := fun before t => before.base.pending = s.base.pending ∧ Idle s t)
  · exact Triple.get fun t ht => ⟨ht.1.pending, ht⟩
  intro before
  apply Triple.bind (Q := fun message t => before.base.pending = s.base.pending ∧ SameTimes s t ∧
    if flag TPNOREPLY flags then message.descriptor = 0
    else message.trid.isSome = takesPart flags s ∧ message.descriptor = (s.base.pending.reserve correlation).2)
  · apply Triple.of_forall
    intro t ht
    have h := untimed_triple (prepareMessage_base env correlation input flags service s) s
    apply h.conseq
    · rintro _ rfl
      exact ht.2
    · rintro message u ⟨hbase, hsame⟩
      refine ⟨ht.1, hsame, ?_⟩
      split_ifs at hbase ⊢
      · exact hbase
      · exact ⟨hbase.1, hbase.2.1⟩
    · exact fun _ _ h => Idle.kept h
  intro message
  apply Triple.bind (Q := fun _ t => before.base.pending = s.base.pending ∧
    t.timeouts = s.timeouts ∧ t.timout = s.timout ∧ t.waited = s.waited ∧ t.carried = s.carried ∧
    if flag TPNOREPLY flags then message.descriptor = 0
    else message.trid.isSome = takesPart flags s ∧ message.descriptor = (s.base.pending.reserve correlation).2)
  · apply Triple.modify
    rintro t ⟨hpending, hsame, hcase⟩
    exact ⟨hpending, hsame.timeouts, hsame.timout, hsame.waited, hsame.carried, hcase⟩
  intro _
  apply Triple.ite
  · intro hreply
    apply Triple.pure
    rintro t ⟨-, htimeouts, -, hwaited, hcarried, hcase⟩
    rw [if_pos hreply] at hcase
    refine ⟨fun d _ => by rw [htimeouts], ?_, by simpa using hwaited, by simpa using hcarried⟩
    unfold Context.deadline prepared
    rw [if_pos hcase, if_pos hreply]
  · intro hreply
    apply Triple.bind (Q := fun _ => Progress flags start timeout s [] [] message.descriptor)
    · apply Triple.modify
      rintro t ⟨hpending, htimeouts, htimout, hwaited, hcarried, hcase⟩
      rw [if_neg hreply] at hcase
      obtain ⟨htrid, hdescriptor⟩ := hcase
      refine ⟨?_, ?_, by simpa using hwaited, by simpa using hcarried⟩
      · intro d hd
        have hne := (s.base.pending.reserve_spec correlation).1 d hd
        dsimp only
        rw [Function.update_of_ne (hdescriptor ▸ hne), hpending, htimeouts, reserve_of_ne _ hne]
      · have hzero : message.descriptor ≠ 0 := hdescriptor ▸ reserve_ne_zero _ _
        unfold Context.deadline
        dsimp only
        rw [if_neg hzero, Function.update_self, hpending, htimeouts, htimout]
        exact deadline_reserve (Bool.eq_false_iff.2 hreply) htrid hdescriptor
    · intro _
      exact Triple.pure fun _ h => h

section Found

variable (flags : Flags) (start timeout : Int) (s : Context Sender)

omit [DecidableEq Sender] in
/-- What does not use a timeout brings a call no further. -/
theorem untimed_spec {α : Type} (x : Call.M Sender α) (waited : List TimePoint) (carried : List Int) (descriptor : Nat) :
    Triple (Progress flags start timeout s waited carried descriptor) (untimed x)
      (fun _ => Progress flags start timeout s waited carried descriptor) (fun _ => Kept s) :=
  ((sameTimes_untimed x).triple fun _ h _ h' => h.same h').conseq (fun _ h => h) (fun _ _ h => h) fun _ _ h => h.kept

omit [DecidableEq Sender] in
theorem wait_spec (descriptor : Nat) :
    Triple (Progress flags start timeout s [] [] descriptor) (wait descriptor)
      (fun _ => Progress flags start timeout s [prepared flags start timeout s] [] descriptor) (fun _ => Kept s) := by
  unfold wait
  apply Triple.bind (untimed_spec flags start timeout s _ [] [] descriptor)
  intro _
  apply Triple.modify
  intro t ht
  refine ⟨ht.kept, ht.deadline, ?_, ht.carried⟩
  rw [ht.waited, ht.deadline, List.append_nil]

omit [DecidableEq Sender] in
theorem sendRequest_spec (waited : List TimePoint) (queue descriptor : Nat) (message : Request) :
    Triple (fun t => Progress flags start timeout s waited [] descriptor t ∧ t.message = timeout)
      (sendRequest env queue message)
      (fun _ => Progress flags start timeout s waited [timeout] descriptor) (fun _ => Kept s) := by
  unfold sendRequest
  apply Triple.bind (Q := fun _ t => Progress flags start timeout s waited [] descriptor t ∧ t.message = timeout)
  · have hsame := (sameTimes_untimed (send env (.call queue message) : Call.M Sender Unit)).triple
      (P := fun t => Progress flags start timeout s waited [] descriptor t ∧ t.message = timeout)
      fun t h u h' => ⟨h.1.same h', h'.message.trans h.2⟩
    exact hsame.conseq (fun _ h => h) (fun _ _ h => h) fun _ _ h => h.1.kept
  · intro _
    apply Triple.modify
    rintro t ⟨ht, hmessage⟩
    refine ⟨ht.kept, ht.deadline, ht.waited, ?_⟩
    rw [ht.carried, hmessage, List.append_nil]

omit [DecidableEq Sender] in
theorem kept_guard (guard : Call.M Sender Unit) {t : Context Sender} (h : Kept s t) : Kept s (after (untimed guard t)) :=
  ((sameTimes_untimed guard).after t).kept h

/-- What a call sends says the timeout of the service, whatever was computed before. -/
theorem asyncFound_spec (correlation : Uuid) (input : Payload) (target : LookupReply) :
    Triple (Idle s) (asyncFound env correlation start input flags timeout target)
      (Progress flags start timeout s [prepared flags start timeout s] [timeout]) (fun _ => Kept s) := by
  unfold asyncFound
  apply Triple.bind (prepareMessage_spec env correlation start input flags target.service timeout s)
  intro message
  apply Triple.bind
    (Q := fun _ => Progress flags start timeout s [prepared flags start timeout s] [timeout] message.descriptor)
  · apply Triple.onError (E := fun _ => Kept s)
    · apply Triple.bind
        (Q := fun _ => Progress flags start timeout s [prepared flags start timeout s] [] message.descriptor)
      · apply Triple.onError (E := fun _ => Kept s)
        · apply Triple.bind (wait_spec flags start timeout s message.descriptor)
          intro _
          apply Triple.ite
          · exact fun _ => untimed_spec flags start timeout s _ _ _ _
          · exact fun _ => Triple.pure fun _ h => h
        · exact fun _ _ h => kept_guard s _ h
      · intro target
        apply Triple.bind (Q := fun _ t =>
          Progress flags start timeout s [prepared flags start timeout s] [] message.descriptor t ∧ t.message = timeout)
        · apply Triple.modify
          intro t ht
          exact ⟨⟨ht.kept, ht.deadline, ht.waited, ht.carried⟩, rfl⟩
        · intro _
          apply Triple.onError (sendRequest_spec env flags start timeout s _ _ _ _)
          exact fun _ _ h => kept_guard s _ h
    · exact fun _ _ h => kept_guard s _ h
  · intro _
    exact Triple.pure fun _ h => h

end Found

theorem async_spec (lookupCorrelation correlation : Uuid) (start : Int) (service : String) (input : Payload)
    (flags : Flags) (timeout : Int) (s : Context Sender) :
    Triple (Idle s) (async env lookupCorrelation correlation start service input flags timeout)
      (Progress flags start timeout s [prepared flags start timeout s] [timeout]) (fun _ => Kept s) := by
  unfold async
  apply Triple.bind (idle_untimed (still_validateInput flags) s)
  intro context
  apply Triple.bind (idle_untimed (still_lookup env lookupCorrelation service context) s)
  intro _
  apply Triple.onExit (Q := Progress flags start timeout s [prepared flags start timeout s] [timeout])
    (E := fun _ => Kept s)
  · apply Triple.bind (idle_untimed (still_attempt env _) s)
    intro _
    apply Triple.bind (idle_untimed (still_lookupReply env) s)
    intro target
    apply Triple.ite
    · intro _
      exact Triple.throw fun _ h => h.kept
    · intro _
      exact asyncFound_spec env flags start timeout s correlation input target
  · exact fun _ t h => h.same ((sameTimes_untimed lookupDone).after t)
  · exact fun _ t h => ((sameTimes_untimed lookupDone).after t).kept h

theorem kept_async (lookupCorrelation correlation : Uuid) (start : Int) (service : String) (input : Payload)
    (flags : Flags) (timeout : Int) (s : Context Sender) :
    Kept s (after (async env lookupCorrelation correlation start service input flags timeout s)) := by
  have hspec := (async_spec env lookupCorrelation correlation start service input flags timeout s).conseq
    (fun _ h => h) (fun _ _ h => Progress.kept h) fun _ _ h => h
  exact hspec.after ⟨Std.Refl.refl _, Std.Refl.refl _⟩

theorem kept_reply (descriptor : Nat) (output : Option Payload) (flags : Flags) (s : Context Sender) :
    Kept s (after (reply env descriptor output flags s)) := by
  have huntimed : ∀ {α : Type} (x : Call.M Sender α), Triple (Kept s) (untimed x) (fun _ => Kept s) (fun _ => Kept s) :=
    fun x => (sameTimes_untimed x).triple fun _ h _ h' => h'.kept h
  have hspec : Triple (Kept s) (reply env descriptor output flags) (fun _ => Kept s) (fun _ => Kept s) := by
    unfold reply
    apply Triple.bind (Q := fun _ => Kept s)
    · unfold wait
      apply Triple.bind (huntimed _)
      intro _
      exact Triple.modify fun _ h => h
    · intro _
      exact huntimed _
  exact hspec.after fun _ _ => rfl

end Spec

/-! ## Until the descriptor is given back -/

/-- The process calls and takes replies; or another part of it, or those that send to it, do something. -/
inductive Event (Sender : Type)
  | async (lookupCorrelation correlation : Uuid) (start : Int) (service : String) (input : Payload) (flags : Flags)
      (timeout : Int)
  | reply (descriptor : Nat) (output : Option Payload) (flags : Flags)
  | other (base : Call.Context Sender) (timout : Timeout)

variable [DecidableEq Sender] (env : Surroundings)

/-- A call, a reply that is got, or whatever happens to the rest of the caller. -/
def step (s : Context Sender) : Event Sender → Context Sender
  | .async lookupCorrelation correlation start service input flags timeout =>
    after (async env lookupCorrelation correlation start service input flags timeout s)
  | .reply descriptor output flags => after (reply env descriptor output flags s)
  | .other base timout => { s with base, timout }

/-- A process from a state on, as long as a descriptor stays reserved. -/
def whileReserved (s : Context Sender) (descriptor : Nat) : Machine (Context Sender) (Event Sender) where
  init t := t = s
  admits t e := descriptor ∈ (step env t e).base.pending.actives.map (·.descriptor)
  step := step env

theorem kept_step (s : Context Sender) : ∀ e, Kept s (step env s e)
  | .async lookupCorrelation correlation start service input flags timeout =>
    kept_async env lookupCorrelation correlation start service input flags timeout s
  | .reply descriptor output flags => kept_reply env descriptor output flags s
  | .other _ _ => fun _ _ => rfl

/-- A descriptor keeps its deadline until it is given back. -/
theorem deadline_of_reachable {s t : Context Sender} {descriptor : Nat}
    (hs : descriptor ∈ s.base.pending.actives.map (·.descriptor))
    (ht : (whileReserved env s descriptor).Reachable t) : t.deadline descriptor = s.deadline descriptor := by
  refine (ht.invariant (I := fun t => descriptor ∈ t.base.pending.actives.map (·.descriptor) ∧
    t.deadline descriptor = s.deadline descriptor) ?_ ?_).2
  · rintro _ rfl
    exact ⟨hs, rfl⟩
  · rintro t e ⟨hactive, hdeadline⟩ hadmits
    refine ⟨hadmits, ?_⟩
    obtain ⟨d, hd, rfl⟩ := List.mem_map.1 hactive
    rw [← hdeadline]
    unfold Context.deadline
    rw [show ((whileReserved env s d.descriptor).step t e).timeouts d.descriptor = t.timeouts d.descriptor from
      kept_step env t e d hd]

/-- What is reserved by a call that succeeds, when a reply is expected. -/
theorem reserved_of_async {lookupCorrelation correlation : Uuid} {start : Int} {service : String} {input : Payload}
    {flags : Flags} {timeout : Int} {s t : Context Sender} {descriptor : Nat}
    (h : async env lookupCorrelation correlation start service input flags timeout s = .ok descriptor t)
    (hreply : flag TPNOREPLY flags = false) : descriptor ∈ t.base.pending.actives.map (·.descriptor) := by
  have hbase := (projects_async env lookupCorrelation correlation start service input flags timeout).run s
  rw [h] at hbase
  have hreserved := Call.async_spec env lookupCorrelation correlation service input flags s.base s.base (Std.Refl.refl _)
  rw [← hbase] at hreserved
  have hpending := hreserved.2
  rw [hreply, if_neg Bool.false_ne_true] at hpending
  have hactive := ((s.base.pending.reserve_spec correlation).2 ⟨(s.base.pending.reserve correlation).2, true, correlation⟩).2
    (.inr rfl)
  rw [← hpending] at hactive
  exact List.mem_map_of_mem hactive

/-! ## The deadline of a call -/

/-- The caller waits, in the call and for the reply, under the earlier of the two deadlines, and the timeout in the request
says the same. -/
structure Timely (flags : Flags) (start timeout : Int) (s : Context Sender) (descriptor : Nat) (t : Context Sender) :
    Prop where
  waits : t.waited = s.waited ++ [effective flags start timeout s]
  replies : flag TPNOREPLY flags = false → ∀ u, (whileReserved env t descriptor).Reachable u →
    u.deadline descriptor = effective flags start timeout s
  carries : ∃ carried, t.carried = s.carried ++ [carried] ∧ expiry start carried = effective flags start timeout s

section Call

variable {lookupCorrelation correlation : Uuid} {start : Int} {service : String} {input : Payload} {flags : Flags}
  {timeout : Int} {s t : Context Sender} {descriptor : Nat}

theorem progress_of_async
    (h : async env lookupCorrelation correlation start service input flags timeout s = .ok descriptor t) :
    Progress flags start timeout s [prepared flags start timeout s] [timeout] descriptor t := by
  have hspec := async_spec env lookupCorrelation correlation start service input flags timeout s s
    ⟨Std.Refl.refl _, Std.Refl.refl _⟩
  rwa [h] at hspec

/-- A call meets its deadline exactly when the one the caller waits under is not rounded, and the timeout of the service
says it already. -/
theorem timely_iff (h : async env lookupCorrelation correlation start service input flags timeout s = .ok descriptor t) :
    Timely env flags start timeout s descriptor t ↔
      WaitsRight flags start timeout s ∧ CarriesRight flags start timeout s := by
  have hprogress := progress_of_async env h
  rw [← prepared_eq_iff, ← expiry_eq_iff]
  constructor
  · rintro ⟨hwaits, -, carried, hcarried, hexpiry⟩
    rw [hprogress.waited] at hwaits
    rw [hprogress.carried] at hcarried
    obtain rfl : timeout = carried := by simpa using hcarried
    exact ⟨by simpa using hwaits, hexpiry⟩
  · rintro ⟨hwaits, hcarries⟩
    refine ⟨by rw [hprogress.waited, hwaits], ?_, timeout, hprogress.carried, hcarries⟩
    intro hreply u hu
    rw [deadline_of_reachable env (reserved_of_async env h hreply) hu, hprogress.deadline, hwaits]

end Call

/-! ### A transaction that ends before the service times out -/

/-- A process in a transaction whose timeout started at zero, and which the broker has told of an instance. -/
def inTransaction (timeout : Int) : Context Unit where
  base := (Call.inTransaction.foldl (System.machine System.plain ipcSize).step System.initial).context
  timeouts _ := .initial
  timout := ⟨0, timeout⟩
  message := 0
  waited := []
  carried := []

theorem transactionDeadline_inTransaction {timeout : Int} (h : timeout ≠ 0) :
    transactionDeadline 0 (inTransaction timeout) = ((1000 * timeout : Int) : TimePoint) := by
  have htakes : takesPart 0 (inTransaction timeout) = true := by
    change (!flag TPNOTRAN 0 &&
      ((Call.inTransaction.foldl (System.machine System.plain ipcSize).step System.initial).context.transactions.getLast?.bind
        (·.trid)).isSome) = true
    decide +kernel
  unfold transactionDeadline Timeout.deadline
  rw [if_pos htakes]
  simp [inTransaction, h]

theorem serviceDeadline_zero {start timeout : Int} (h : timeout ≠ 0) :
    serviceDeadline 0 start timeout = ((start + 1000 * timeout : Int) : TimePoint) := by
  unfold serviceDeadline expiry
  rw [if_neg (by decide), if_neg h]

/-- The request says ten seconds when the transaction has one left; and in a transaction whose time is up the caller
waits without a deadline. -/
theorem tenSeconds_not_timely :
    (∃ d t, async System.plain 101 1 0 "service" ⟨"", []⟩ 0 10000000 (inTransaction 1000000) = .ok d t ∧
      t.carried = [10000000] ∧ ¬ Timely System.plain 0 0 10000000 (inTransaction 1000000) d t) ∧
    ∃ d t, async System.plain 101 1 1000000000 "service" ⟨"", []⟩ 0 10000000 (inTransaction 1000000) = .ok d t ∧
      t.waited = [⊤] ∧ ¬ Timely System.plain 0 1000000000 10000000 (inTransaction 1000000) d t := by
  have htransaction := @transactionDeadline_inTransaction 1000000 (by decide)
  have hservice := fun start => @serviceDeadline_zero start 10000000 (by decide)
  constructor
  · obtain ⟨d, t, h⟩ := exists_of_returns
      (r := async System.plain 101 1 0 "service" ⟨"", []⟩ 0 10000000 (inTransaction 1000000)) (by decide +kernel)
    have hprogress := progress_of_async System.plain h
    refine ⟨d, t, h, hprogress.carried, fun htimely => ?_⟩
    obtain ⟨carried, hcarried, hexpiry⟩ := htimely.carries
    obtain rfl : carried = 10000000 := by simpa using hcarried.symm.trans hprogress.carried
    have hright := expiry_eq_iff.1 hexpiry
    unfold CarriesRight at hright
    rw [if_neg (by decide), htransaction, show expiry 0 10000000 = _ from hservice 0, WithTop.coe_le_coe] at hright
    omega
  · obtain ⟨d, t, h⟩ := exists_of_returns
      (r := async System.plain 101 1 1000000000 "service" ⟨"", []⟩ 0 10000000 (inTransaction 1000000))
      (by decide +kernel)
    have hprogress := progress_of_async System.plain h
    have hlt : transactionDeadline 0 (inTransaction 1000000) < serviceDeadline 0 1000000000 10000000 := by
      rw [htransaction, hservice, WithTop.coe_lt_coe]
      omega
    have hprepared : prepared 0 1000000000 10000000 (inTransaction 1000000) = ⊤ := by
      unfold prepared
      rw [if_neg (by decide), if_pos hlt, htransaction]
      rfl
    rw [hprepared] at hprogress
    refine ⟨d, t, h, hprogress.waited, fun htimely => ?_⟩
    have hwaits : [(⊤ : TimePoint)] = [effective 0 1000000000 10000000 (inTransaction 1000000)] :=
      hprogress.waited.symm.trans htimely.waits
    unfold effective at hwaits
    rw [min_eq_right hlt.le, htransaction] at hwaits
    exact absurd (List.singleton_inj.1 hwaits).symm (WithTop.coe_ne_top)

/-- A service that times out before the transaction does. -/
theorem oneSecond_timely :
    ∃ d t, async System.plain 101 1 0 "service" ⟨"", []⟩ 0 1000000 (inTransaction 2000000) = .ok d t ∧
      Timely System.plain 0 0 1000000 (inTransaction 2000000) d t := by
  have htransaction := @transactionDeadline_inTransaction 2000000 (by decide)
  have hservice := @serviceDeadline_zero 0 1000000 (by decide)
  obtain ⟨d, t, h⟩ := exists_of_returns
    (r := async System.plain 101 1 0 "service" ⟨"", []⟩ 0 1000000 (inTransaction 2000000)) (by decide +kernel)
  refine ⟨d, t, h, (timely_iff System.plain h).2 ⟨?_, ?_⟩⟩
  · unfold WaitsRight
    rw [if_neg (by decide), htransaction, hservice, WithTop.coe_lt_coe]
    omega
  · unfold CarriesRight
    rw [if_neg (by decide), htransaction, show expiry 0 1000000 = _ from hservice, WithTop.coe_le_coe]
    omega

end Timed

end Casual.Call
